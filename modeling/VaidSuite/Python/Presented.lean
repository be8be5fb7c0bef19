import VaidSuite.Lib.Guards
import VaidSuite.Python.Chain

/-! Documents that satisfy the structural contract, with the values of their members.
On these the verification functions raise nothing and compute the total functions here. -/
namespace VaidSuite.Python

open Guards (firstRefusal)

variable [Libraries]

/-- A dict that satisfies the structural contract. -/
structure Presented where
  dict : Dict
  contract : satisfiesContract dict = true

namespace Presented

variable (d : Presented)

/-- A member that holds a string. -/
def text (key : String) : PyStr := (d.dict.get key).asStr.getD []

def vaidId : PyStr := vaidIdOf d.dict
def parentVaid : Option PyStr := parentOf d.dict
def agentId : PyStr := d.text "agent_id"
def tenantId : PyStr := d.text "tenant_id"
def trustDomain : PyStr := d.text "trust_domain"
def thumbprint : PyStr := d.text "kernel_key_thumbprint"

/-- A member that holds a list. -/
def items (key : String) : List PyValue :=
  match d.dict.get key with
  | .arr items => items
  | _ => []

def scopeBoundary : List PyValue := d.items "scope_boundary"
def capabilitySet : List PyStr := (d.items "capability_set").filterMap Json.asStr

def expiresAt : Option UtcDatetime :=
  match parseRfc3339 (d.dict.get "expires_at") with
  | .ok expiresAt => expiresAt
  | .error _ => none

/-- Reading the expiry does not overflow. -/
def Timely : Prop := parseRfc3339 (d.dict.get "expires_at") = .ok d.expiresAt

/-- An expiry that can be read falls in the years that a UTC `datetime` can hold. -/
def InYears : Prop :=
  ∀ s utcMicros, d.dict.get "expires_at" = .str s →
    Libraries.fromisoformat s = some (.aware utcMicros) → ∃ u, utcDatetime utcMicros = .ok u

/-- An expiry that cannot be read has passed. -/
def isExpired (now : UtcDatetime) : Bool := d.expiresAt.all (fun expiresAt => expiresAt < now)

/-- The prefixes of the boundary, when every entry can be read. -/
def claimed : Option (List PyStr) := claimedResources d.scopeBoundary

def inScope (resource : PyStr) : Bool := scopeContains d.scopeBoundary resource

def authenticitySteps (key : Bytes) : List (Bool × VaidVerdict) :=
  [(pyEq (d.dict.get "sig_version") (.num (.int vaidSigVersionV4)), .unsupportedSigVersion),
    (!d.trustDomain.isEmpty && isTrustDomain d.trustDomain, .malformedTrustDomain),
    (decide (kernelKeyThumbprint key = .ok d.thumbprint), .issuerMismatch),
    (decide (computeLineageHash (d.dict.get "parent_vaid") (.str d.agentId) =
      .ok (d.text "lineage_hash")), .lineageInconsistent),
    (decide (verifyKernelSignature key d.dict = .ok ()), .inauthentic)]

def authenticity (key : Bytes) : VaidVerdict := firstRefusal .valid (d.authenticitySteps key)

theorem required {key : String} {isWellTyped : PyValue → Bool}
    (listed : (key, isWellTyped) ∈ requiredMembers) :
    d.dict.item key = .ok (d.dict.get key) ∧ isWellTyped (d.dict.get key) = true := by
  have contract := d.contract
  simp only [satisfiesContract, Bool.and_eq_true] at contract
  obtain ⟨v, found, typed⟩ := (Option.any_eq_true _ _).mp (List.all_eq_true.mp contract.1.1 _ listed)
  have value : d.dict.get key = v := by
    rw [Dict.get, found]
    rfl
  rw [value, Dict.item, found]
  exact ⟨rfl, typed⟩

omit [Libraries] in
theorem str_of_asStr {v : PyValue} (some_ : v.asStr.isSome = true) : v = .str (v.asStr.getD []) := by
  cases v with
  | str s => rfl
  | _ => cases some_

theorem get_str {key : String} (listed : (key, isStr) ∈ requiredMembers) :
    d.dict.get key = .str (d.text key) :=
  str_of_asStr (d.required listed).2

theorem item_str {key : String} (listed : (key, isStr) ∈ requiredMembers) :
    d.dict.item key = .ok (.str (d.text key)) := by
  rw [(d.required listed).1, d.get_str listed]

theorem get_uuid {key : String} (listed : (key, isUuid) ∈ requiredMembers) :
    d.dict.get key = .str (d.text key) ∧ isUuidText (d.text key) = true := by
  obtain ⟨s, some_, reads⟩ := (Option.any_eq_true _ _).mp (d.required listed).2
  have value : d.dict.get key = .str (d.text key) :=
    str_of_asStr (Option.isSome_iff_exists.mpr ⟨s, some_⟩)
  have same : d.text key = s := by rw [text, some_]; rfl
  exact ⟨value, same ▸ reads⟩

theorem get_vaidId : d.dict.get "vaid_id" = .str d.vaidId :=
  (d.get_uuid (by simp [requiredMembers])).1

theorem get_thumbprint : d.dict.get "kernel_key_thumbprint" = .str d.thumbprint :=
  d.get_str (by simp [requiredMembers])

theorem get_trustDomain : d.dict.get "trust_domain" = .str d.trustDomain :=
  d.get_str (by simp [requiredMembers])

theorem get_parentVaid : (d.dict.get "parent_vaid" = .null ∧ d.parentVaid = none) ∨
    ∃ parent, d.dict.get "parent_vaid" = .str parent ∧ d.parentVaid = some parent ∧
      isUuidText parent = true := by
  have contract := d.contract
  simp only [satisfiesContract, Bool.and_eq_true] at contract
  have parent := contract.2
  unfold parentIsUuid at parent
  unfold parentVaid parentOf
  cases h : d.dict.get "parent_vaid" with
  | null => exact .inl ⟨rfl, rfl⟩
  | str s =>
    simp only [h] at parent
    exact .inr ⟨s, rfl, rfl, parent⟩
  | _ =>
    simp only [h] at parent
    cases parent

theorem get_scopeBoundary : d.dict.get "scope_boundary" = .arr d.scopeBoundary := by
  have typed := (d.required (show ("scope_boundary", isWellFormedScopeBoundary) ∈ requiredMembers by
    simp [requiredMembers])).2
  unfold scopeBoundary items
  cases h : d.dict.get "scope_boundary" with
  | arr boundary => rfl
  | _ =>
    rw [h] at typed
    cases typed

theorem get_capabilitySet :
    d.dict.get "capability_set" = .arr (d.capabilitySet.map .str) := by
  have typed := (d.required (show ("capability_set", isStrList) ∈ requiredMembers by
    simp [requiredMembers])).2
  unfold capabilitySet items
  cases h : d.dict.get "capability_set" with
  | arr capabilities =>
    rw [h] at typed
    have strs : ∀ v ∈ capabilities, isStr v = true := List.all_eq_true.mp typed
    have back : (capabilities.filterMap Json.asStr).map Json.str = capabilities := by
      clear h typed
      induction capabilities with
      | nil => rfl
      | cons v capabilities ih =>
        have rest := ih (fun w hw => strs w (List.mem_cons_of_mem _ hw))
        obtain ⟨s, rfl⟩ : ∃ s, v = .str s := ⟨_, str_of_asStr (strs v List.mem_cons_self)⟩
        rw [List.filterMap_cons_some (show Json.asStr (.str s) = some s from rfl), List.map_cons, rest]
    exact congrArg Json.arr back.symm
  | _ =>
    rw [h] at typed
    cases typed

theorem requireVaidShape_ok (context : String) : requireVaidShape d.dict context = .ok () := by
  obtain ⟨value, reads⟩ := d.get_uuid (show ("vaid_id", isUuid) ∈ requiredMembers by
    simp [requiredMembers])
  rw [requireVaidShape, value]
  cases h : d.text "vaid_id" with
  | nil =>
    rw [h] at reads
    cases reads
  | cons c s =>
    rcases d.get_parentVaid with ⟨none_, _⟩ | ⟨parent, some_, _⟩
    · simp [none_]
    · simp [some_]

variable {d} in
theorem timely_of_inYears (inYears : d.InYears) : d.Timely := by
  have value : d.dict.get "expires_at" = .str (d.text "expires_at") :=
    d.get_str (by simp [requiredMembers])
  unfold Timely expiresAt
  rw [value]
  cases read : Libraries.fromisoformat (d.text "expires_at") with
  | none => simp [parseRfc3339, read]
  | some datetime =>
    cases datetime with
    | naive => simp [parseRfc3339, read]
    | aware utcMicros =>
      obtain ⟨u, fits⟩ := inYears _ utcMicros value read
      simp [parseRfc3339, read, fits, Except.map]

theorem timely_of_parse {expiresAt : Option UtcDatetime}
    (parsed : parseRfc3339 (d.dict.get "expires_at") = .ok expiresAt) : d.Timely := by
  rw [Timely, Presented.expiresAt, parsed]

variable {d} in
theorem isExpiredAt_ok (timely : d.Timely) (now : UtcDatetime) :
    isExpiredAt d.dict now = .ok (d.isExpired now) := by
  rw [isExpiredAt, timely, isExpired]
  cases d.expiresAt <;> rfl

theorem of_isExpiredAt {now : UtcDatetime} {expired : Bool}
    (decided : isExpiredAt d.dict now = .ok expired) : d.Timely ∧ d.isExpired now = expired := by
  have timely : d.Timely := by
    cases parsed : parseRfc3339 (d.dict.get "expires_at") with
    | ok expiresAt => exact d.timely_of_parse parsed
    | error e =>
      rw [isExpiredAt, parsed] at decided
      cases decided
  rw [isExpiredAt_ok timely] at decided
  exact ⟨timely, Except.ok.inj decided⟩

theorem isInScope_ok (resource : PyStr) : isInScope d.dict resource = .ok (d.inScope resource) := by
  have item := (d.required (show ("scope_boundary", isWellFormedScopeBoundary) ∈ requiredMembers by
    simp [requiredMembers])).1
  rw [isInScope, item, d.get_scopeBoundary]
  rfl

theorem kernelSignature_bytes : ∃ b, toBytes (d.dict.get "kernel_signature") = .ok b := by
  have typed := (d.required (show ("kernel_signature", isByteList) ∈ requiredMembers by
    simp [requiredMembers])).2
  cases h : d.dict.get "kernel_signature" with
  | arr bytes =>
    rw [h] at typed
    have each : ∀ v ∈ bytes, ∃ b, toByte v = .ok b := by
      intro v member
      have byte := List.all_eq_true.mp typed v member
      split at byte
      · have bound := of_decide_eq_true byte
        exact ⟨_, if_pos ⟨bound.1, by omega⟩⟩
      · cases byte
    choose! f hf using each
    exact ⟨_, Raising.mapM_ok hf⟩
  | _ =>
    rw [h] at typed
    cases typed

theorem verifyKernelSignature_cases (key : Bytes) :
    verifyKernelSignature key d.dict = .ok () ∨
      verifyKernelSignature key d.dict = .error .valueError ∨
        verifyKernelSignature key d.dict = .error .invalidSignature := by
  obtain ⟨signature, bytes⟩ := d.kernelSignature_bytes
  have item := (d.required (show ("kernel_signature", isByteList) ∈ requiredMembers by
    simp [requiredMembers])).1
  by_cases length : key.length = 32
  · have body : verifyKernelSignature key d.dict =
        (canonicalVaidSigningBytes d.dict >>= ed25519Check key signature) := by
      simp [verifyKernelSignature, length, item, bytes]
    rw [body, canonicalVaidSigningBytes, dumps]
    cases Libraries.canonicalize (.obj (InsertionMap.set (py "kernel_signature") .null d.dict)) with
    | none => exact .inr (.inl rfl)
    | some canonical =>
      by_cases verified : Libraries.ed25519Verify key signature (Libraries.sha256 canonical) = true
      · exact .inl (if_pos verified)
      · exact .inr (.inr (if_neg verified))
  · have refused : verifyKernelSignature key d.dict = .error .valueError := by
      simp only [verifyKernelSignature, length, ne_eq, not_false_eq_true, if_true]
      rfl
    exact .inr (.inl refused)

/-- The material of the lineage hash encodes, so hashing it raises nothing. -/
theorem computeLineageHash_ok :
    ∃ h, computeLineageHash (d.dict.get "parent_vaid") (.str d.agentId) = .ok h := by
  have agent : Encodable d.agentId :=
    encodable_of_isUuidText (d.get_uuid (by simp [requiredMembers])).2
  have append : ∀ {s t : PyStr}, Encodable s → Encodable t → Encodable (s ++ t) :=
    fun hs ht c member => (List.mem_append.mp member).elim (hs c) (ht c)
  have genesis : Encodable (py "GENESIS:") := fun c hc =>
    List.all_eq_true.mp (show (py "GENESIS:").all (fun c => c.toChar?.isSome) = true by decide) c hc
  have colon : Encodable (py ":") := fun c hc =>
    List.all_eq_true.mp (show (py ":").all (fun c => c.toChar?.isSome) = true by decide) c hc
  rcases d.get_parentVaid with ⟨none_, _⟩ | ⟨parent, some_, _, reads⟩
  · obtain ⟨material, encoded⟩ := encode_ok (append genesis agent)
    exact ⟨hexdigest (Libraries.sha256 material), by
      rw [none_, computeLineageHash]
      simp only [format, encoded]
      rfl⟩
  · obtain ⟨material, encoded⟩ :=
      encode_ok (append (append (encodable_of_isUuidText reads) colon) agent)
    exact ⟨hexdigest (Libraries.sha256 material), by
      simp only [some_, computeLineageHash, format, encoded]
      rfl⟩

theorem verifyLineageHash_ok : verifyLineageHash d.dict =
    .ok (decide (computeLineageHash (d.dict.get "parent_vaid") (.str d.agentId) =
      .ok (d.text "lineage_hash"))) := by
  obtain ⟨h, computed⟩ := d.computeLineageHash_ok
  have agent : d.dict.get "agent_id" = .str d.agentId :=
    (d.get_uuid (by simp [requiredMembers])).1
  have claimed : d.dict.get "lineage_hash" = .str (d.text "lineage_hash") :=
    d.get_str (by simp [requiredMembers])
  rw [verifyLineageHash, agent, claimed]
  simp only [computed, Raising.ok_bind, pyEq_str, Except.ok.injEq, beq_eq_decide]
  rfl

theorem isValidTrustDomain_ok (text : Encodable d.trustDomain) :
    isValidTrustDomain (d.dict.get "trust_domain") =
      .ok (!d.trustDomain.isEmpty && isTrustDomain d.trustDomain) := by
  obtain ⟨b, encoded⟩ := encode_ok text
  rw [d.get_trustDomain, isValidTrustDomain, encoded]
  cases d.trustDomain.isEmpty <;> rfl

theorem kernelKeyThumbprint_excepting (key : Bytes) :
    excepting [.typeError, .valueError] (kernelKeyThumbprint key) =
      .ok (kernelKeyThumbprint key).toOption := by
  unfold kernelKeyThumbprint dumps
  dsimp only
  split <;> rfl

theorem verifyKernelSignature_excepting (key : Bytes) :
    excepting [.invalidSignature, .valueError, .keyError, .typeError]
        (verifyKernelSignature key d.dict) =
      .ok (if verifyKernelSignature key d.dict = .ok () then some () else none) := by
  rcases d.verifyKernelSignature_cases key with h | h | h <;> rw [h] <;> rfl

theorem verifyVaidAuthenticityGraded_ok (key : Bytes) (text : Encodable d.trustDomain) :
    verifyVaidAuthenticityGraded key d.dict = .ok (d.authenticity key) := by
  unfold verifyVaidAuthenticityGraded authenticity authenticitySteps
  simp only [d.requireVaidShape_ok, d.isValidTrustDomain_ok text, d.verifyLineageHash_ok,
    d.verifyKernelSignature_excepting, kernelKeyThumbprint_excepting, d.get_thumbprint, pyEq_str,
    Raising.ok_bind, firstRefusal]
  cases pyEq (d.dict.get "sig_version") (.num (.int vaidSigVersionV4)) with
  | false => rfl
  | true =>
    cases (!d.trustDomain.isEmpty && isTrustDomain d.trustDomain) with
    | false => rfl
    | true =>
      cases kernelKeyThumbprint key with
      | error e => rfl
      | ok expected =>
        by_cases same : d.thumbprint = expected
        · subst same
          by_cases lineage : computeLineageHash (d.dict.get "parent_vaid") (.str d.agentId) =
              .ok (d.text "lineage_hash")
          · by_cases signature : verifyKernelSignature key d.dict = .ok ()
            · simp [Except.toOption, lineage, signature]
              rfl
            · simp [Except.toOption, lineage, signature]
              rfl
          · simp [Except.toOption, lineage]
            rfl
        · simp [Except.toOption, same, Ne.symm same]
          rfl

end Presented
end VaidSuite.Python
