import VaidSuite.Scope

/-! The VAID document as presented: its members, expiry, lineage hash, JSON form
and canonical signing bytes. -/
namespace VaidSuite

/-- The current signature scheme. -/
def vaidSigVersionV4 : UInt8 := 4

def vaidMemberNames : List String :=
  ["sig_version", "vaid_id", "agent_id", "agent_class", "version", "tenant_id", "issued_at",
    "expires_at", "public_key_der", "kernel_signature", "parent_vaid", "scope_boundary",
    "lineage_hash", "capability_set", "trust_domain", "kernel_key_thumbprint"]

/-- The flattened capture map: every member of a presented document that the
document type does not name. -/
structure UnknownFields where
  members : List (String × Json String)
  sorted : SortedMap.Sorted members
  ordered : Json.orderedMembers members = true
  unnamed : ∀ m ∈ members, m.1 ∉ vaidMemberNames

def UnknownFields.empty : UnknownFields := ⟨[], .nil, rfl, by simp⟩

/-- A VAID. Members that have more than one spelling are kept as presented. The
outer option of `presentedParent` is presence, the inner one the value. -/
structure Vaid where
  sigVersion : UInt8
  presentedVaidId : PresentedUuid
  presentedAgentId : PresentedUuid
  agentClass : AgentClass
  version : String
  tenantId : TenantId
  issuedAtAsPresented : String
  expiresAtAsPresented : String
  publicKeyDer : Bytes
  kernelSignature : Bytes
  presentedParent : Option (Option PresentedUuid)
  scopeBoundary : List ScopeBoundaryEntry
  lineageHash : String
  capabilitySet : List String
  trustDomain : String
  kernelKeyThumbprint : String
  unknownFields : UnknownFields

namespace Vaid

def vaidId (v : Vaid) : VaidId := ⟨v.presentedVaidId.uuid⟩
def agentId (v : Vaid) : AgentId := ⟨v.presentedAgentId.uuid⟩

def parentVaid (v : Vaid) : Option VaidId :=
  (v.presentedParent.bind id).map (fun p => ⟨p.uuid⟩)

def withKernelSignature (v : Vaid) (signature : Bytes) : Vaid :=
  { v with kernelSignature := signature }

def isInScope (v : Vaid) (resource : String) : Bool := scopeContains v.scopeBoundary resource
def hasCapability (v : Vaid) (capability : String) : Bool := capsContain v.capabilitySet capability

/-- The members `Serialize` writes for the named fields. An absent `parent_vaid`
stays absent. -/
def namedMembers (v : Vaid) : List (String × Json String) :=
  [("sig_version", .ofNat v.sigVersion.toNat),
   ("vaid_id", .str v.presentedVaidId.asPresented),
   ("agent_id", .str v.presentedAgentId.asPresented),
   ("agent_class", .str v.agentClass.asStr),
   ("version", .str v.version),
   ("tenant_id", .str v.tenantId.asStr),
   ("issued_at", .str v.issuedAtAsPresented),
   ("expires_at", .str v.expiresAtAsPresented),
   ("public_key_der", .ofBytes v.publicKeyDer),
   ("kernel_signature", .ofBytes v.kernelSignature)] ++
  (match v.presentedParent with
   | none => []
   | some none => [("parent_vaid", .null)]
   | some (some p) => [("parent_vaid", .str p.asPresented)]) ++
  [("scope_boundary", .arr (v.scopeBoundary.map ScopeBoundaryEntry.toJson)),
   ("lineage_hash", .str v.lineageHash),
   ("capability_set", .arr (v.capabilitySet.map .str)),
   ("trust_domain", .str v.trustDomain),
   ("kernel_key_thumbprint", .str v.kernelKeyThumbprint)]

theorem namedMembers_keys (v : Vaid) : v.namedMembers.map Prod.fst =
    if v.presentedParent = none then vaidMemberNames.erase "parent_vaid" else vaidMemberNames := by
  unfold namedMembers
  rcases v.presentedParent with _ | _ | p <;> rfl

theorem members_nodup (v : Vaid) :
    ((v.namedMembers ++ v.unknownFields.members).map Prod.fst).Nodup := by
  have names : vaidMemberNames.Nodup := by decide
  have within : ∀ k ∈ v.namedMembers.map Prod.fst, k ∈ vaidMemberNames := by
    intro k hk
    rw [namedMembers_keys] at hk
    split at hk
    · exact List.mem_of_mem_erase hk
    · exact hk
  rw [List.map_append, List.nodup_append]
  refine ⟨?_, v.unknownFields.sorted.nodup_keys, ?_⟩
  · rw [namedMembers_keys]
    split
    · exact names.erase _
    · exact names
  · rintro k hk _ hu rfl
    obtain ⟨m, hm, rfl⟩ := List.mem_map.mp hu
    exact v.unknownFields.unnamed m hm (within _ hk)

/-- `serde_json::to_value`. -/
def toJson (v : Vaid) : Json String := .object (v.namedMembers ++ v.unknownFields.members)

theorem toJson_get_named (v : Vaid) {m : String × Json String} (h : m ∈ v.namedMembers) :
    v.toJson.get m.1 = some m.2 := by
  show (SortedMap.ofList _).lookup _ = _
  rw [SortedMap.lookup_ofList _ v.members_nodup]
  exact SortedMap.lookup_of_mem v.members_nodup (List.mem_append_left _ h)

section Chrono

variable [Chrono]

def issuedAt (v : Vaid) : Option Instant := Chrono.parseFromRfc3339 v.issuedAtAsPresented
def expiresAt (v : Vaid) : Option Instant := Chrono.parseFromRfc3339 v.expiresAtAsPresented

/-- Live at its own `expires_at`, expired after it. An unreadable expiry is expired. -/
def isExpiredAt (v : Vaid) (now : Instant) : Bool :=
  match v.expiresAt with
  | some expiresAt => decide (expiresAt < now)
  | none => true

end Chrono

end Vaid

section Crypto

variable [Crypto]

/-- Lowercase hex of the SHA-256 of `"{parent}:{agent_id}"`, or of
`"GENESIS:{agent_id}"` for a root. -/
def computeLineageHash (parentVaid : Option VaidId) (agentId : AgentId) : String :=
  match parentVaid with
  | some parent => lowerHex (Crypto.sha256 (utf8 (toString parent ++ ":" ++ toString agentId)))
  | none => lowerHex (Crypto.sha256 (utf8 ("GENESIS:" ++ toString agentId)))

/-- The digest of an object with one member forced to null. -/
def canonicalSigningBytes (signatureMember : String) (value : Json String) : Bytes :=
  Crypto.sha256 (Crypto.jcs (value.insert signatureMember .null))

def canonicalVaidSigningBytes (vaid : Vaid) : Bytes :=
  canonicalSigningBytes "kernel_signature" vaid.toJson

theorem canonicalVaidSigningBytes_withKernelSignature (v : Vaid) (signature : Bytes) :
    canonicalVaidSigningBytes (v.withKernelSignature signature) = canonicalVaidSigningBytes v := by
  have members : SortedMap.insert "kernel_signature" Json.null
      (SortedMap.ofList ((v.withKernelSignature signature).namedMembers ++
        (v.withKernelSignature signature).unknownFields.members)) =
      SortedMap.insert "kernel_signature" .null
        (SortedMap.ofList (v.namedMembers ++ v.unknownFields.members)) := by
    refine SortedMap.insert_congr (SortedMap.ofList_sorted _) (SortedMap.ofList_sorted _) _ ?_
    intro k other
    rw [SortedMap.lookup_ofList _ (v.withKernelSignature signature).members_nodup,
      SortedMap.lookup_ofList _ v.members_nodup]
    simp only [Vaid.namedMembers, Vaid.withKernelSignature, List.lookup_append, List.lookup_cons,
      beq_eq_false_iff_ne.mpr other]
  have values : (v.withKernelSignature signature).toJson.insert "kernel_signature" .null =
      v.toJson.insert "kernel_signature" .null := congrArg Json.obj members
  rw [canonicalVaidSigningBytes, canonicalVaidSigningBytes, canonicalSigningBytes,
    canonicalSigningBytes, values]

/-- The constructor the issuer uses. The `vaid_id` is the `agent_id`, timestamps
are whole seconds, and a root carries a present null parent. -/
def Vaid.withLineage [Chrono] (agentId : AgentId) (agentClass : AgentClass) (version : String)
    (tenantId : TenantId) (issuedAt expiresAt : Instant) (publicKeyDer kernelSignature : Bytes)
    (parentVaid : Option VaidId) (scopeBoundary : List ScopeBoundaryEntry) (lineageHash : String)
    (capabilitySet : List String) (trustDomain kernelKeyThumbprint : String) : Vaid where
  sigVersion := vaidSigVersionV4
  presentedVaidId := .ofUuid agentId.uuid
  presentedAgentId := .ofUuid agentId.uuid
  agentClass := agentClass
  version := version
  tenantId := tenantId
  issuedAtAsPresented := Chrono.formatWholeSecond issuedAt
  expiresAtAsPresented := Chrono.formatWholeSecond expiresAt
  publicKeyDer := publicKeyDer
  kernelSignature := kernelSignature
  presentedParent := some (parentVaid.map (fun p => .ofUuid p.uuid))
  scopeBoundary := scopeBoundary
  lineageHash := lineageHash
  capabilitySet := capabilitySet
  trustDomain := trustDomain
  kernelKeyThumbprint := kernelKeyThumbprint
  unknownFields := .empty

end Crypto

end VaidSuite
