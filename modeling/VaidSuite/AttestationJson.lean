import VaidSuite.Attestation
import VaidSuite.Canonical
import VaidSuite.Deserialize

/-! Deserializing a consent attestation from a JSON value, and what serializing it again
gives back. -/
namespace VaidSuite

/-- chrono's `Deserialize` of a `DateTime<Utc>`, from a string. -/
class ChronoDeserialize where
  dateTime : String → Option Instant

def attestationMemberNames : List String :=
  ["att_version", "parent_vaid", "child_vaid", "child_trust_domain", "child_tenant_id", "issued_at",
    "expires_at", "scope_boundary", "capability_set", "trust_domain", "kernel_key_thumbprint",
    "signature"]

theorem Json.object_eq_iff {members : List (String × Json String)}
    (distinct : (members.map Prod.fst).Nodup) {j : JsonValue} (notArray : ∃ ms, j.members? = some ms) :
    Json.object members = j.val ↔ (∀ m ∈ members, j.val.get m.1 = some m.2) ∧
      ∀ k v, j.val.get k = some v → k ∈ members.map Prod.fst := by
  have lookups : ∀ k, (Json.object members).get k = members.lookup k :=
    SortedMap.lookup_ofList members distinct
  constructor
  · intro same
    rw [← same]
    refine ⟨fun m member => ?_, fun k v found => ?_⟩
    · rw [lookups]
      exact SortedMap.lookup_of_mem distinct member
    · rw [lookups] at found
      exact List.mem_map_of_mem (SortedMap.mem_of_lookup found)
  · rintro ⟨held, only⟩
    obtain ⟨ms, isObject⟩ := notArray
    have val := JsonValue.members?_eq_some isObject
    have sorted : SortedMap.Sorted ms := by
      have ordered := j.property
      rw [val, Json.ordered, Bool.and_eq_true, decide_eq_true_eq] at ordered
      exact ordered.1
    rw [val] at held only ⊢
    refine congrArg Json.obj (SortedMap.ext (SortedMap.ofList_sorted _) sorted (fun k => ?_))
    rw [SortedMap.lookup_ofList members distinct]
    cases found : members.lookup k with
    | some v => exact (held (k, v) (SortedMap.mem_of_lookup found)).symm
    | none =>
      cases other : ms.lookup k with
      | none => rfl
      | some v =>
        obtain ⟨m, member, rfl⟩ := List.mem_map.mp (only k v other)
        simpa using List.lookup_eq_none_iff.mp found m member

namespace Deserialize

def vaidId (j : JsonValue) : Option VaidId := ((string j).bind Uuid.parseStr).map VaidId.mk

/-- The fields of a derived struct: the members of an object, or the items of an array of
the right length, by position. -/
def structFields (names : List String) (j : JsonValue) : Option (String → Option JsonValue) :=
  match j.items? with
  | some items => if items.length = names.length then some (fun k => (names.zip items).lookup k) else none
  | none => j.members?.map (fun _ k => j.member? k)

def HyphenatedUuid (m : JsonValue) : Prop := ∃ u : Uuid, m.val = .str (toString u)

theorem vaidId_reproduces : Reproduces vaidId (fun id => .str (toString id)) HyphenatedUuid := by
  intro j id h
  obtain ⟨u, read, rfl⟩ := Option.map_eq_some_iff.mp h
  obtain ⟨s, text, parsed⟩ := Option.bind_eq_some_iff.mp read
  have val : j.val = .str s := ((string_reproduces j s text).mpr trivial).symm
  constructor
  · intro same
    exact ⟨u, same.symm⟩
  · rintro ⟨u', written⟩
    cases val.symm.trans written
    cases (Uuid.parseStr_toString u').symm.trans parsed
    exact written.symm

/-- A field comes out under its name as it was presented exactly when what it was
read from is in the form it is written in. -/
theorem get_iff_of_reproduces {α : Type} {de : JsonValue → Option α} {ser : α → Json String}
    {good : JsonValue → Prop} (reproduces : Reproduces de ser good) {j : JsonValue} {name : String}
    {a : α} (h : (j.member? name).bind de = some a) :
    j.val.get name = some (ser a) ↔ ∀ m, j.member? name = some m → good m := by
  obtain ⟨m, found, read⟩ := Option.bind_eq_some_iff.mp h
  rw [JsonValue.member?_eq_some found, found, Option.some.injEq, eq_comm, reproduces m a read]
  simp

theorem entries_iff {j : JsonValue} :
    (∀ m, j.member? "scope_boundary" = some m →
      ∀ items, m.items? = some items → ∀ i ∈ items, i.items? = none) ↔ ¬ HasPositionalEntry j := by
  constructor
  · rintro objects ⟨boundary, items, found, hitems, entry, member, array⟩
    exact array (objects boundary found items hitems entry member)
  · intro objects m found items hitems i member
    by_contra array
    exact objects ⟨m, items, found, hitems, i, member, array⟩

section Fields

variable [ChronoDeserialize]

def dateTime (j : JsonValue) : Option Instant := (string j).bind ChronoDeserialize.dateTime

/-- `Deserialize for ConsentAttestation`. Other members are passed over. -/
def attestation (j : JsonValue) : Option ConsentAttestation := do
  let get ← structFields attestationMemberNames j
  let attVersion ← (get "att_version").bind u8
  let parentVaid ← (get "parent_vaid").bind vaidId
  let childVaid ← (get "child_vaid").bind vaidId
  let childTrustDomain ← (get "child_trust_domain").bind string
  let childTenantId ← (get "child_tenant_id").bind string
  let issuedAt ← (get "issued_at").bind dateTime
  let expiresAt ← (get "expires_at").bind dateTime
  let scopeBoundary ← (get "scope_boundary").bind (vec scopeBoundaryEntry)
  let capabilitySet ← (get "capability_set").bind (vec string)
  let trustDomain ← (get "trust_domain").bind string
  let kernelKeyThumbprint ← (get "kernel_key_thumbprint").bind string
  let signature ← (get "signature").bind (vec u8)
  some {
    attVersion, parentVaid, childVaid, childTrustDomain, childTenantId, issuedAt, expiresAt,
    scopeBoundary, capabilitySet, trustDomain, kernelKeyThumbprint, signature }

structure AttestationReads (get : String → Option JsonValue) (a : ConsentAttestation) : Prop where
  attVersion : (get "att_version").bind u8 = some a.attVersion
  parentVaid : (get "parent_vaid").bind vaidId = some a.parentVaid
  childVaid : (get "child_vaid").bind vaidId = some a.childVaid
  childTrustDomain : (get "child_trust_domain").bind string = some a.childTrustDomain
  childTenantId : (get "child_tenant_id").bind string = some a.childTenantId
  issuedAt : (get "issued_at").bind dateTime = some a.issuedAt
  expiresAt : (get "expires_at").bind dateTime = some a.expiresAt
  scope : (get "scope_boundary").bind (vec scopeBoundaryEntry) = some a.scopeBoundary
  caps : (get "capability_set").bind (vec string) = some a.capabilitySet
  trustDomain : (get "trust_domain").bind string = some a.trustDomain
  thumbprint : (get "kernel_key_thumbprint").bind string = some a.kernelKeyThumbprint
  signature : (get "signature").bind (vec u8) = some a.signature

theorem reads_of_attestation {j : JsonValue} {a : ConsentAttestation} (h : attestation j = some a) :
    ∃ get, structFields attestationMemberNames j = some get ∧ AttestationReads get a := by
  unfold attestation at h
  simp only [Option.bind_eq_bind] at h
  obtain ⟨get, fields, h⟩ := Option.bind_eq_some_iff.mp h
  obtain ⟨_, h₁, h⟩ := Option.bind_eq_some_iff.mp h
  obtain ⟨_, h₂, h⟩ := Option.bind_eq_some_iff.mp h
  obtain ⟨_, h₃, h⟩ := Option.bind_eq_some_iff.mp h
  obtain ⟨_, h₄, h⟩ := Option.bind_eq_some_iff.mp h
  obtain ⟨_, h₅, h⟩ := Option.bind_eq_some_iff.mp h
  obtain ⟨_, h₆, h⟩ := Option.bind_eq_some_iff.mp h
  obtain ⟨_, h₇, h⟩ := Option.bind_eq_some_iff.mp h
  obtain ⟨_, h₈, h⟩ := Option.bind_eq_some_iff.mp h
  obtain ⟨_, h₉, h⟩ := Option.bind_eq_some_iff.mp h
  obtain ⟨_, h₁₀, h⟩ := Option.bind_eq_some_iff.mp h
  obtain ⟨_, h₁₁, h⟩ := Option.bind_eq_some_iff.mp h
  obtain ⟨_, h₁₂, h⟩ := Option.bind_eq_some_iff.mp h
  cases h
  exact ⟨get, fields, h₁, h₂, h₃, h₄, h₅, h₆, h₇, h₈, h₉, h₁₀, h₁₁, h₁₂⟩

/-- A member is a timestamp in the spelling that the instant it names is written in. -/
def WrittenTime [Chrono] (m : JsonValue) : Prop :=
  ∀ s t, m.val = .str s → ChronoDeserialize.dateTime s = some t → Chrono.serialize t = s

structure AsWritten [Chrono] (j : JsonValue) : Prop where
  object : j.members?.isSome = true
  named : ∀ k v, j.val.get k = some v → k ∈ attestationMemberNames
  parentVaid : ∀ m, j.member? "parent_vaid" = some m → HyphenatedUuid m
  childVaid : ∀ m, j.member? "child_vaid" = some m → HyphenatedUuid m
  issuedAt : ∀ m, j.member? "issued_at" = some m → WrittenTime m
  expiresAt : ∀ m, j.member? "expires_at" = some m → WrittenTime m
  entries : ¬ HasPositionalEntry j

theorem dateTime_reproduces [Chrono] :
    Reproduces dateTime (fun t => .str (Chrono.serialize t)) WrittenTime := by
  intro j t h
  obtain ⟨s, text, parsed⟩ := Option.bind_eq_some_iff.mp h
  have val : j.val = .str s := ((string_reproduces j s text).mpr trivial).symm
  constructor
  · intro same s' t' val' parsed'
    cases val.symm.trans val'
    cases parsed.symm.trans parsed'
    exact Json.str.inj (same.trans val)
  · intro written
    exact (congrArg Json.str (written s t val parsed)).trans val.symm

theorem toJson_eq_iff [Chrono] {j : JsonValue} {a : ConsentAttestation}
    (accepted : attestation j = some a) : a.toJson = j.val ↔ AsWritten j := by
  obtain ⟨get, fields, reads⟩ := reads_of_attestation accepted
  unfold structFields at fields
  split at fields
  · -- a form by position comes back as an object
    rename_i items array
    constructor
    · intro same
      have val := same.trans (JsonValue.items?_eq_some array)
      cases val
    · intro written
      obtain ⟨members, object⟩ := Option.isSome_iff_exists.mp written.object
      cases (JsonValue.items?_eq_some array).symm.trans (JsonValue.members?_eq_some object)
  · obtain ⟨members, object, rfl⟩ := Option.map_eq_some_iff.mp fields
    have distinct : attestationMemberNames.Nodup := by decide
    have version := (get_iff_of_reproduces u8_reproduces reads.attVersion).mpr (fun _ _ => trivial)
    have signature : j.val.get "signature" = some (.ofBytes a.signature) :=
      (get_iff_of_reproduces (vec_reproduces u8_reproduces) reads.signature).mpr
        (fun _ _ _ _ _ _ => trivial)
    have caps := (get_iff_of_reproduces (vec_reproduces string_reproduces) reads.caps).mpr
      (fun _ _ _ _ _ _ => trivial)
    have scope := get_iff_of_reproduces (vec_reproduces scopeBoundaryEntry_reproduces) reads.scope
    have parent := get_iff_of_reproduces vaidId_reproduces reads.parentVaid
    have child := get_iff_of_reproduces vaidId_reproduces reads.childVaid
    have issued := get_iff_of_reproduces dateTime_reproduces reads.issuedAt
    have expires := get_iff_of_reproduces dateTime_reproduces reads.expiresAt
    have text {name s} (h : (j.member? name).bind string = some s) :=
      (get_iff_of_reproduces string_reproduces h).mpr (fun _ _ => trivial)
    unfold ConsentAttestation.toJson
    rw [Json.object_eq_iff (by exact distinct) ⟨members, object⟩]
    simp only [List.forall_mem_cons, List.not_mem_nil, false_implies, implies_true, and_true,
      version, parent, child, text reads.childTrustDomain, text reads.childTenantId, issued, expires,
      scope, entries_iff, caps, text reads.trustDomain, text reads.thumbprint, signature, true_and]
    constructor
    · rintro ⟨⟨hp, hc, hi, he, hs⟩, named⟩
      exact ⟨Option.isSome_iff_exists.mpr ⟨members, object⟩, named, hp, hc, hi, he, hs⟩
    · intro written
      exact ⟨⟨written.parentVaid, written.childVaid, written.issuedAt, written.expiresAt,
        written.entries⟩, written.named⟩

theorem attestation_faithful_iff [Crypto] [Chrono] (collisionFree : Function.Injective Crypto.sha256)
    (injective : Crypto.JcsInjective) (j : JsonValue) (a : ConsentAttestation)
    (accepted : attestation j = some a) :
    ((a.toJson = j.val ∧
        canonicalAttestationSigningBytes a = canonicalSigningBytes "signature" j.val) ↔ AsWritten j) ∧
      ∀ (j' : JsonValue) (a' : ConsentAttestation), attestation j' = some a' →
        AsWritten j → AsWritten j' →
        (j.val.insert "signature" .null).doubles ≠ (j'.val.insert "signature" .null).doubles →
        ∀ key : Bytes, Crypto.Binds key → a.signature = a'.signature →
          ¬(verifyAttestationAuthenticity key a = true ∧ verifyAttestationAuthenticity key a' = true) := by
  have same_iff := toJson_eq_iff accepted
  refine ⟨⟨fun same => same_iff.mp same.1, fun written => ?_⟩, ?_⟩
  · have same := same_iff.mpr written
    exact ⟨same, congrArg (canonicalSigningBytes _) same⟩
  · rintro j' a' accepted' written written' differ key binds sameSignature ⟨verifies, verifies'⟩
    have checked := signature_of_verifyAttestationAuthenticity verifies
    have checked' := signature_of_verifyAttestationAuthenticity verifies'
    rw [← sameSignature] at checked'
    have digests := binds _ _ _ checked checked'
    rw [canonicalAttestationSigningBytes, canonicalAttestationSigningBytes, same_iff.mpr written,
      (toJson_eq_iff accepted').mpr written'] at digests
    exact differ (doubles_of_digest collisionFree injective
      (Json.ordered_insert j.property rfl _) (Json.ordered_insert j'.property rfl _) digests)

end Fields

section Example

local instance consentChrono : Chrono :=
  .table [(1893456000, "2030-01-01T00:00:00Z"), (1893459600, "2030-01-01T01:00:00Z")]

local instance consentDeserialize : ChronoDeserialize := ⟨Chrono.parseFromRfc3339⟩

local instance consentCrypto : Crypto := .ideal

def consentFor (tenant : String) : ConsentAttestation where
  attVersion := 1
  parentVaid := ⟨⟨List.replicate 32 1, rfl⟩⟩
  childVaid := ⟨⟨List.replicate 32 2, rfl⟩⟩
  childTrustDomain := "vaid.example"
  childTenantId := tenant
  issuedAt := ⟨1893456000, 0⟩
  expiresAt := ⟨1893459600, 0⟩
  scopeBoundary := [.ofPrefix "orders/"]
  capabilitySet := ["read"]
  trustDomain := "vaid.example"
  kernelKeyThumbprint := "urn:ietf:params:oauth:jwk-thumbprint:sha-256:AA"
  signature := [1]

def presentedConsent (tenant : String) : JsonValue :=
  ⟨(consentFor tenant).toJson, (consentFor tenant).ordered_toJson⟩

def extendedConsent : JsonValue :=
  ⟨(presentedConsent "acme").val.insert "unread" (.str "x"),
    Json.ordered_insert (presentedConsent "acme").property rfl _⟩

theorem attestation_faithful_iff_presentedConsent :
    ((consentFor "acme").toJson = (presentedConsent "acme").val ∧
        canonicalAttestationSigningBytes (consentFor "acme") =
          canonicalSigningBytes "signature" (presentedConsent "acme").val) ∧
      ¬(verifyAttestationAuthenticity [7] (consentFor "acme") = true ∧
        verifyAttestationAuthenticity [7] (consentFor "globex") = true) := by
  have acme : attestation (presentedConsent "acme") = some (consentFor "acme") := rfl
  have globex : attestation (presentedConsent "globex") = some (consentFor "globex") := rfl
  have written := (toJson_eq_iff acme).mp rfl
  obtain ⟨faithful, apart⟩ := attestation_faithful_iff Function.injective_id Crypto.ideal_jcsInjective
    (presentedConsent "acme") (consentFor "acme") acme
  refine ⟨faithful.mpr written, apart _ _ globex written ((toJson_eq_iff globex).mp rfl) ?_ [7]
    (Crypto.ideal_binds [7]) rfl⟩
  intro same
  have tenants := congrArg (Json.get "child_tenant_id") same
  rw [Json.get_doubles, Json.get_doubles] at tenants
  have texts : some (Json.str "acme") = some (Json.str "globex") := tenants
  simp at texts

theorem extendedConsent_not_reproduced :
    attestation extendedConsent = some (consentFor "acme") ∧
      attestation (presentedConsent "acme") = some (consentFor "acme") ∧
      (consentFor "acme").toJson ≠ extendedConsent.val ∧
      canonicalAttestationSigningBytes (consentFor "acme") ≠
        canonicalSigningBytes "signature" extendedConsent.val := by
  refine ⟨rfl, rfl, fun same => ?_, fun same => ?_⟩
  · have unread : none = some (Json.str "x") := congrArg (Json.get "unread") same
    cases unread
  · have doubles := doubles_of_digest Function.injective_id Crypto.ideal_jcsInjective
      (Json.ordered_insert (consentFor "acme").ordered_toJson rfl _)
      (Json.ordered_insert extendedConsent.property rfl _) same
    have unread := congrArg (Json.get "unread") doubles
    rw [Json.get_doubles, Json.get_doubles] at unread
    have present : none = some (Json.str "x") := unread
    cases present

end Example

end Deserialize

end VaidSuite
