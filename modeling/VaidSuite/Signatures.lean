import VaidSuite.Canonical
import VaidSuite.Issuer
import VaidSuite.Requests

/-! What a signature was made for. Five types of object are hashed as bare canonical JSON,
and their member sets keep them apart. -/
namespace VaidSuite

inductive ObjectKind where
  | vaid
  | attestation
  | request
  | completion
  | mintPop
  deriving DecidableEq, Repr

inductive SignedObject where
  | vaid (v : Vaid)
  | attestation (a : ConsentAttestation)
  | request (p : RequestAuthPayload)
  | completion (r : CompletionRecord)
  | mintPop (p : MintPopPayload)

namespace SignedObject

def kind : SignedObject → ObjectKind
  | .vaid _ => .vaid
  | .attestation _ => .attestation
  | .request _ => .request
  | .completion _ => .completion
  | .mintPop _ => .mintPop

def covered [Chrono] : SignedObject → Json String
  | .vaid v => v.toJson.insert "kernel_signature" .null
  | .attestation a => a.toJson.insert "signature" .null
  | .request p => p.toJson
  | .completion r => r.toJson
  | .mintPop p => p.toJson

end SignedObject

/-- The type of a covered value, told by the members it has. Only a VAID may have members
beyond the named ones, and it alone always has `kernel_signature`. -/
def kindOf (has : String → Bool) : ObjectKind :=
  if has "kernel_signature" then .vaid
  else if has "att_version" then .attestation
  else if has "bodySha256" then .request
  else if has "assuranceTier" then .completion
  else .mintPop

def ObjectKind.memberNames : ObjectKind → List String
  | .vaid => vaidMemberNames
  | .attestation =>
    ["att_version", "parent_vaid", "child_vaid", "child_trust_domain", "child_tenant_id",
      "issued_at", "expires_at", "scope_boundary", "capability_set", "trust_domain",
      "kernel_key_thumbprint", "signature"]
  | .request =>
    ["vaidId", "method", "path", "bodySha256", "tenantId", "timestamp", "clientNonce"]
  | .completion =>
    ["vaidId", "requestDigestSha256", "tenantId", "status", "resultSha256", "completedAt",
      "signerVaidId", "assuranceTier", "recordNonce"]
  | .mintPop =>
    ["publicKeyDer", "tenantId", "agentClass", "version", "parentVaid", "scopeBoundary",
      "capabilitySet", "nonce", "issuedAt"]

theorem ObjectKind.memberNames_nodup (kind : ObjectKind) : kind.memberNames.Nodup := by
  cases kind <;> decide

theorem Json.get_object_isSome {members : List (String × Json String)} {names : List String}
    (distinct : names.Nodup) (named : members.map Prod.fst = names) (k : String) :
    ((Json.object members).get k).isSome = names.contains k := by
  subst named
  have lookup : (Json.object members).get k = members.lookup k :=
    SortedMap.lookup_ofList members distinct k
  rw [lookup, Bool.eq_iff_iff, List.contains_iff_mem]
  constructor
  · intro found
    obtain ⟨v, found⟩ := Option.isSome_iff_exists.mp found
    exact List.mem_map_of_mem (SortedMap.mem_of_lookup found)
  · intro member
    obtain ⟨⟨k, v⟩, held, rfl⟩ := List.mem_map.mp member
    rw [SortedMap.lookup_of_mem distinct held]
    rfl

theorem Json.get_insert_isSome (members : List (String × Json String)) (k' : String)
    (v : Json String) (k : String) : (((Json.object members).insert k' v).get k).isSome =
      (k == k' || ((Json.object members).get k).isSome) := by
  by_cases same : k = k'
  · subst same
    simp [Json.object, Json.insert, Json.get]
  · simp [Json.object, Json.insert, Json.get, SortedMap.lookup_insert_ne _ _ same, same]

namespace SignedObject

variable [Chrono]

/-- A VAID always has `kernel_signature`. The other types have exactly the members they name. -/
theorem covered_has (o : SignedObject) (k : String) :
    (o.kind = .vaid → (o.covered.get "kernel_signature").isSome = true) ∧
      (o.kind ≠ .vaid → (o.covered.get k).isSome = o.kind.memberNames.contains k) := by
  cases o with
  | vaid v =>
    refine ⟨fun _ => ?_, fun other => absurd rfl other⟩
    rw [covered, Vaid.toJson, Json.get_insert_isSome, beq_self_eq_true, Bool.true_or]
  | attestation a =>
    refine ⟨fun same => (by cases same), fun _ => ?_⟩
    have named : (a.toJson.get k).isSome = ObjectKind.attestation.memberNames.contains k :=
      Json.get_object_isSome (ObjectKind.memberNames_nodup .attestation) rfl k
    rw [covered]
    refine (Json.get_insert_isSome _ _ _ k).trans ?_
    by_cases same : k = "signature"
    · subst same
      rfl
    · rw [beq_eq_false_iff_ne.mpr same, Bool.false_or]
      exact named
  | request p =>
    exact ⟨fun same => (by cases same), fun _ => Json.get_object_isSome (ObjectKind.memberNames_nodup .request) rfl k⟩
  | completion r =>
    exact ⟨fun same => (by cases same), fun _ => Json.get_object_isSome (ObjectKind.memberNames_nodup .completion) rfl k⟩
  | mintPop p =>
    exact ⟨fun same => (by cases same), fun _ => Json.get_object_isSome (ObjectKind.memberNames_nodup .mintPop) rfl k⟩

theorem kind_eq (o : SignedObject) : o.kind = kindOf (fun k => (o.covered.get k).isSome) := by
  by_cases vaid : o.kind = .vaid
  · simp only [kindOf, (o.covered_has "").1 vaid, if_true, vaid]
  · simp only [kindOf, (o.covered_has _).2 vaid]
    cases h : o.kind with
    | vaid => exact absurd h vaid
    | attestation => decide
    | request => decide
    | completion => decide
    | mintPop => decide

theorem covered_ordered (o : SignedObject) : o.covered.ordered = true := by
  cases o with
  | vaid v => exact Json.ordered_insert v.ordered_toJson rfl _
  | attestation a => exact Json.ordered_insert a.ordered_toJson rfl _
  | request p =>
    refine Json.ordered_object (fun m member => ?_)
    simp only [List.mem_cons, List.not_mem_nil, or_false] at member
    rcases member with rfl | rfl | rfl | rfl | rfl | rfl | rfl <;> rfl
  | completion r =>
    refine Json.ordered_object (fun m member => ?_)
    simp only [List.mem_cons, List.not_mem_nil, or_false] at member
    rcases member with rfl | rfl | rfl | rfl | rfl | rfl | rfl | rfl | rfl <;> rfl
  | mintPop p =>
    refine Json.ordered_object (fun m member => ?_)
    simp only [List.mem_cons, List.not_mem_nil, or_false] at member
    rcases member with rfl | rfl | rfl | rfl | rfl | rfl | rfl | rfl | rfl
    case inr.inr.inr.inr.inl => cases p.parentVaid <;> rfl
    all_goals first
      | rfl
      | exact ordered_boundary _
      | exact Json.ordered_strings _
      | exact Json.ordered_ofBytes _

variable [Crypto]

def digest (o : SignedObject) : Bytes := Crypto.sha256 (Crypto.jcs o.covered)

theorem of_digest (collisionFree : Function.Injective Crypto.sha256)
    (injective : Crypto.JcsInjective) {o o' : SignedObject} (same : o.digest = o'.digest) :
    o.kind = o'.kind ∧ o.covered.doubles = o'.covered.doubles := by
  have doubles := doubles_of_digest collisionFree injective o.covered_ordered o'.covered_ordered same
  have members : (fun k => (o.covered.get k).isSome) = fun k => (o'.covered.get k).isSome := by
    funext k
    have values := congrArg (Json.get k) doubles
    rw [Json.get_doubles, Json.get_doubles] at values
    simpa using congrArg Option.isSome values
  exact ⟨by rw [kind_eq, kind_eq, members], doubles⟩

/-- A presented object, with its signature, passes the verifier of its type under a key. -/
def Verifies (publicKey : Bytes) (o : SignedObject) (signature : Bytes) : Prop :=
  match o with
  | .vaid v => v.kernelSignature = signature ∧ verifyVaidAuthenticity publicKey v = true
  | .attestation a => a.signature = signature ∧ verifyAttestationAuthenticity publicKey a = true
  | .request p => verifySignedPayload p.toJson publicKey signature = true
  | .completion r => verifySignedPayload r.toJson publicKey signature = true
  | .mintPop p => verifySignedPayload p.toJson publicKey signature = true

theorem Verifies.signature {publicKey : Bytes} {o : SignedObject} {signature : Bytes}
    (verifies : o.Verifies publicKey signature) :
    Crypto.ed25519Verify publicKey o.digest signature = true := by
  cases o with
  | vaid v =>
    obtain ⟨rfl, accepted⟩ := verifies
    exact ((verifyVaidAuthenticity_iff publicKey v).mp accepted).signature
  | attestation a =>
    obtain ⟨rfl, accepted⟩ := verifies
    exact signature_of_verifyAttestationAuthenticity accepted
  | request p => exact verifies
  | completion r => exact verifies
  | mintPop p => exact verifies

end SignedObject

section Signing

variable [Crypto] [Chrono]

/-- The issuer consents in its own trust domain and under its own key. -/
def ReferenceIssuer.attestDelegation {L R : Type} (issuer : ReferenceIssuer L R) (now : Instant)
    (parentVaid childVaid : VaidId) (childTrustDomain childTenantId : String) (expiresAt : Instant)
    (scopeBoundary : List ScopeBoundaryEntry) (capabilitySet : List String) : ConsentAttestation :=
  let unsigned : ConsentAttestation := {
    attVersion := attestationVersion
    parentVaid, childVaid, childTrustDomain, childTenantId
    issuedAt := now.truncSubsecs
    expiresAt := expiresAt.truncSubsecs
    scopeBoundary, capabilitySet
    trustDomain := issuer.trustDomain.val
    kernelKeyThumbprint := kernelKeyThumbprint issuer.kernelPublicKey
    signature := [] }
  { unsigned with
    signature := Crypto.sign issuer.kernelKeyPair (canonicalAttestationSigningBytes unsigned) }

/-- An object and a signature that one of the signers made for it with this key. -/
inductive Produced (keyPair : Ed25519KeyPair) : SignedObject → Bytes → Prop where
  | vaid {L R : Type} [LineageStore L] (issuer : ReferenceIssuer L R)
      (keyed : issuer.kernelKeyPair = keyPair) (v : Vaid) (minted : issuer.Mints v) :
      Produced keyPair (.vaid v) v.kernelSignature
  | attestation {L R : Type} (issuer : ReferenceIssuer L R)
      (keyed : issuer.kernelKeyPair = keyPair) (now : Instant) (parentVaid childVaid : VaidId)
      (childTrustDomain childTenantId : String) (expiresAt : Instant)
      (scopeBoundary : List ScopeBoundaryEntry) (capabilitySet : List String)
      (a : ConsentAttestation)
      (attested : issuer.attestDelegation now parentVaid childVaid childTrustDomain childTenantId
        expiresAt scopeBoundary capabilitySet = a) :
      Produced keyPair (.attestation a) a.signature
  | request (p : RequestAuthPayload) : Produced keyPair (.request p) (signPayload p.toJson keyPair)
  | completion (r : CompletionRecord) :
      Produced keyPair (.completion r) (signPayload r.toJson keyPair)
  | mintPop (p : MintPopPayload) : Produced keyPair (.mintPop p) (signPayload p.toJson keyPair)

theorem canonicalAttestationSigningBytes_signature (a : ConsentAttestation) (signature : Bytes) :
    canonicalAttestationSigningBytes { a with signature } = canonicalAttestationSigningBytes a := by
  have distinct := ObjectKind.memberNames_nodup .attestation
  refine congrArg (fun members => Crypto.sha256 (Crypto.jcs (.obj members)))
    (SortedMap.insert_congr (SortedMap.ofList_sorted _) (SortedMap.ofList_sorted _) _ ?_)
  intro k other
  rw [SortedMap.lookup_ofList _ (by exact distinct), SortedMap.lookup_ofList _ (by exact distinct)]
  simp only [List.lookup_cons, beq_eq_false_iff_ne.mpr other]

theorem Produced.signature {keyPair : Ed25519KeyPair} {o : SignedObject} {signature : Bytes}
    (produced : Produced keyPair o signature) : signature = Crypto.sign keyPair o.digest := by
  cases produced with
  | vaid issuer keyed v minted =>
    obtain ⟨env, attributes, publicKeyDer, expires, rfl⟩ := ReferenceIssuer.mints_signed minted
    subst keyed
    refine congrArg (Crypto.sign _) ?_
    exact (canonicalVaidSigningBytes_withKernelSignature _ _).symm
  | attestation issuer keyed now parentVaid childVaid childTrustDomain childTenantId expiresAt
      scopeBoundary capabilitySet a attested =>
    subst keyed attested
    refine congrArg (Crypto.sign _) ?_
    exact (canonicalAttestationSigningBytes_signature _ _).symm
  | request p => rfl
  | completion r => rfl
  | mintPop p => rfl

/-- A signature that one of the signers made verifies for no object of another type, whatever
its members, and within its type only for the value that was signed. -/
theorem signature_binds_object (collisionFree : Function.Injective Crypto.sha256)
    (injective : Crypto.JcsInjective) (bind : Crypto.SignaturesBind) (keyPair : Ed25519KeyPair)
    (collection : List (SignedObject × Bytes))
    (produced : ∀ s ∈ collection, Produced keyPair s.1 s.2) (s : SignedObject × Bytes)
    (member : s ∈ collection) (presented : SignedObject)
    (verifies : presented.Verifies (Crypto.publicKey keyPair) s.2) :
    presented.kind = s.1.kind ∧ presented.covered.doubles = s.1.covered.doubles := by
  have checked := verifies.signature
  rw [(produced s member).signature] at checked
  exact SignedObject.of_digest collisionFree injective (bind keyPair _ _ checked)

end Signing

section Example

open ReferenceIssuer

local instance signedCrypto : Crypto := .ideal

local instance signedChrono : Chrono :=
  .table [(1893456000, "2030-01-01T00:00:00Z"), (1893459600, "2030-01-01T01:00:00Z")]

/-- A VAID and a consent of one issuer, and a payload of each kind under the same key. -/
def signedVaid : Vaid :=
  exampleIssuer.signedVaid exampleEnv laterKindAttributes [2] ⟨1893459600, 0⟩

def signedConsent : ConsentAttestation :=
  exampleIssuer.attestDelegation ⟨1893456000, 0⟩ signedVaid.vaidId ⟨.fromU128 2⟩ "other.example"
    "globex" ⟨1893459600, 0⟩ [.ofPrefix "orders/"] ["read"]

def signedRequest : RequestAuthPayload :=
  ⟨signedVaid.vaidId, "POST", "/orders", "00", "acme", ⟨1893456000, 0⟩, "nonce"⟩

def signedCompletion : CompletionRecord :=
  ⟨signedVaid.vaidId, "00", "acme", "succeeded", "00", ⟨1893456000, 0⟩, signedVaid.vaidId,
    .selfReported, "nonce"⟩

def signedMintPop : MintPopPayload :=
  ⟨[2], "acme", "researcher", "1.0.0", none, [.ofPrefix "orders/"], ["read"], "nonce",
    ⟨1893456000, 0⟩⟩

def signedCollection : List (SignedObject × Bytes) :=
  [(.vaid signedVaid, signedVaid.kernelSignature), (.attestation signedConsent, signedConsent.signature),
    (.request signedRequest, signPayload signedRequest.toJson ⟨[1]⟩),
    (.completion signedCompletion, signPayload signedCompletion.toJson ⟨[1]⟩),
    (.mintPop signedMintPop, signPayload signedMintPop.toJson ⟨[1]⟩)]

theorem signature_binds_object_signedCollection :
    (SignedObject.request signedRequest).kind = .request ∧
      (SignedObject.request signedRequest).covered.doubles = signedRequest.toJson.doubles := by
  have produced : ∀ s ∈ signedCollection, Produced ⟨[1]⟩ s.1 s.2 := by
    simp only [signedCollection, List.forall_mem_cons, List.not_mem_nil, false_implies,
      implies_true, and_true]
    exact ⟨.vaid exampleIssuer rfl signedVaid ⟨exampleEnv, laterKindAttributes, none, .inr rfl⟩,
      .attestation exampleIssuer rfl _ _ _ _ _ _ _ _ signedConsent rfl, .request _, .completion _,
      .mintPop _⟩
  exact signature_binds_object Function.injective_id Crypto.ideal_jcsInjective
    Crypto.ideal_signaturesBind ⟨[1]⟩ signedCollection produced
    (.request signedRequest, signPayload signedRequest.toJson ⟨[1]⟩) (by simp [signedCollection])
    (.request signedRequest) (beq_self_eq_true _)

end Example

end VaidSuite
