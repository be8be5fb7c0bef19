import VaidSuite.Python.A2aSpec
import VaidSuite.Python.AdkSpec
import VaidSuite.Python.IssuersSpec
import VaidSuite.Python.JwtBridgeSpec

/-! The bearers of a chain agree: the A2A verifier, the ADK plugin and the JWT bridge report
the same fault of the same documents, each in its own words. -/
namespace VaidSuite.Python

open Guards (firstRefusal)

def VerifyCode.value : VerifyCode → String
  | .allowed => "allowed"
  | .noVaid => "no_vaid"
  | .unparseable => "unparseable"
  | .unsupportedSigVersion => "unsupported_sig_version"
  | .malformedTrustDomain => "malformed_trust_domain"
  | .issuerMismatch => "issuer_mismatch"
  | .lineageInconsistent => "lineage_inconsistent"
  | .inauthentic => "inauthentic"
  | .expired => "expired"
  | .unknownScopeKind => "unknown_scope_kind"
  | .unverifiable => "unverifiable"
  | .notAttenuated => "not_attenuated"
  | .consentExpired => "consent_expired"
  | .outOfScope => "out_of_scope"
  | .revoked => "revoked"
  | .indeterminate => "indeterminate"

def Adk.VerifyCode.value : Adk.VerifyCode → String
  | .allowed => "allowed"
  | .noVaid => "no_vaid"
  | .unsupportedSigVersion => "unsupported_sig_version"
  | .malformedTrustDomain => "malformed_trust_domain"
  | .issuerMismatch => "issuer_mismatch"
  | .lineageInconsistent => "lineage_inconsistent"
  | .inauthentic => "inauthentic"
  | .expired => "expired"
  | .unknownScopeKind => "unknown_scope_kind"
  | .unverifiable => "unverifiable"
  | .notAttenuated => "not_attenuated"
  | .consentExpired => "consent_expired"
  | .outOfScope => "out_of_scope"
  | .missingCapability => "missing_capability"
  | .revoked => "revoked"
  | .indeterminate => "indeterminate"

/-- The code that a reason of the bridge corresponds to. Two are about the request alone. -/
def JwtBridge.DenialReason.code : JwtBridge.DenialReason → Option VerifyCode
  | .noLeaf => some .noVaid
  | .unsupportedSigVersion => some .unsupportedSigVersion
  | .malformedTrustDomain => some .malformedTrustDomain
  | .issuerMismatch => some .issuerMismatch
  | .lineageInconsistent => some .lineageInconsistent
  | .inauthentic => some .inauthentic
  | .leafExpired | .chainExpired => some .expired
  | .unknownScopeKind => some .unknownScopeKind
  | .chainUnverifiable => some .unverifiable
  | .chainNotAttenuated => some .notAttenuated
  | .chainConsentExpired => some .consentExpired
  | .revoked => some .revoked
  | .revocationUnavailable => some .indeterminate
  | .missingAudience | .unsupportedRequestedTokenType => none

theorem codeOf_value (kind : FaultKind) : (Adk.codeOf kind).value = (codeOf kind).value := by
  cases kind with
  | authenticity verdict => cases verdict <;> rfl
  | chain verdict => cases verdict <;> rfl
  | _ => rfl

section Bearers

variable [Libraries]

theorem JwtBridge.report_denies (keys : TrustedIssuerMap) (leaf : Dict) (fault : Fault) :
    ∃ reason detail, JwtBridge.report keys leaf fault = .denied reason detail ∧
      reason.code = some (codeOf fault.kind) := by
  cases fault with
  | leafAuthenticity verdict => cases verdict <;> exact ⟨_, _, rfl, rfl⟩
  | chain verdict => cases verdict <;> exact ⟨_, _, rfl, rfl⟩
  | _ => exact ⟨_, _, rfl, rfl⟩

variable {keys : TrustedIssuerMap} {leaf : Presented} {chain : List Presented} {now : UtcDatetime}

def standingCode : RevocationStatus → VerifyCode
  | .notRevoked => .allowed
  | standing => standingRefusal standing

theorem verifyStanding_code (revocation : List PyStr → RevocationStatus) (leaf : Presented)
    (chain : List Presented) : ∃ result,
      verifyStanding revocation none leaf.dict (bundleOf chain) = .ok result ∧
        result.code = standingCode (lineageStanding revocation leaf chain) := by
  obtain ⟨reason, stands⟩ := verifyStanding_ok revocation none leaf chain
  refine ⟨_, stands, ?_⟩
  cases lineageStanding revocation leaf chain <;> rfl

/-- What passed every step is a lineage of documents with canonical forms, and the leaf's
expiry was read. -/
theorem of_faultSteps (documented : CanonicalizesDocumented)
    (passed : firstRefusal none (faultSteps keys leaf chain now) = none) :
    ∃ ancestors expiresAt, (presentation leaf chain).IsLineage maxLineageDepth ancestors ∧
      (∀ d ∈ leaf :: ancestors, isCanonicalizable (.obj d.dict) = true) ∧
      leaf.expiresAt = some expiresAt := by
  have refuses : ∀ s ∈ faultSteps keys leaf chain now, s.2 ≠ none := by
    simp [faultSteps, documentSteps]
  have steps := (Guards.firstRefusal_eq_accepted_iff _ _ refuses).mp passed
  simp only [faultSteps, documentSteps, List.forall_mem_append, List.forall_mem_cons, beq_iff_eq,
    Bool.not_eq_true'] at steps
  obtain ⟨⟨_, _, unexpired, _⟩, _, _, attenuated, _⟩ := steps
  have chainPasses := (Guards.firstRefusal_eq_accepted_iff _ _
    (chainSteps_refuse leaf chain keys.trust now)).mp attenuated
  obtain ⟨leafAuthentic, keptAuthentic, ancestors, lineage, _⟩ :=
    ((presentation leaf chain).steps_pass_iff _ _ (by decide)).mp chainPasses
  have canonicalizable : ∀ d : Presented, d.isAuthentic keys.trust = true →
      isCanonicalizable (.obj d.dict) = true := by
    intro d authentic
    obtain ⟨key, _, valid⟩ := (Option.any_eq_true _ _).mp authentic
    exact Presented.isCanonicalizable_of_valid documented (eq_of_beq valid)
  refine ⟨ancestors, leaf.expiresAt.get ?_, lineage, ?_, (Option.some_get _).symm⟩
  · unfold Presented.isExpired at unexpired
    cases reads : leaf.expiresAt with
    | some expiresAt => rfl
    | none =>
      rw [reads] at unexpired
      cases unexpired
  · refine List.forall_mem_cons.mpr ⟨canonicalizable leaf leafAuthentic, fun a member => ?_⟩
    refine canonicalizable a (keptAuthentic a ?_)
    exact List.mem_map.mpr ⟨_, InsertionMap.mem_of_lookup (lineage.presented a member), rfl⟩

theorem JwtBridge.parse_of_expiresAt {expiresAt : UtcDatetime}
    (reads : leaf.expiresAt = some expiresAt) :
    JwtBridge.parseRfc3339Z (leaf.dict.get "expires_at") = .ok expiresAt := by
  unfold Presented.expiresAt parseRfc3339 at reads
  unfold JwtBridge.parseRfc3339Z
  cases value : leaf.dict.get "expires_at" with
  | str s =>
    simp only [value] at reads
    cases read : Libraries.fromisoformat s with
    | none => simp [read] at reads
    | some datetime =>
      cases datetime with
      | naive => simp [read] at reads
      | aware utcMicros =>
        simp only [read] at reads ⊢
        cases fits : utcDatetime utcMicros with
        | error e => simp [fits, Except.map] at reads
        | ok u => simpa [fits, Except.map] using reads
  | _ => simp [value] at reads

variable (now) in
/-- The bridge answers with the standing as well. Where the lineage stands, it issues a token
unless no whole second of the leaf's life is left. -/
theorem JwtBridge.issueStanding_ok (documented : CanonicalizesDocumented)
    (revocation : List PyStr → RevocationStatus) (audience : PyStr) {issuance : JwtBridge.Issuance}
    (signs : ∀ claims, ∃ token, issuance.sign claims = .ok token)
    (positive : 0 < issuance.defaultTtlSeconds) {ancestors : List Presented}
    {expiresAt : UtcDatetime} (lineage : (presentation leaf chain).IsLineage maxLineageDepth ancestors)
    (canonicalizable : ∀ d ∈ leaf :: ancestors, isCanonicalizable (.obj d.dict) = true)
    (reads : leaf.expiresAt = some expiresAt) : ∃ result,
      JwtBridge.issueStanding revocation issuance audience now leaf.dict (bundleOf chain) =
        .ok result ∧
      (standingCode (lineageStanding revocation leaf chain) ≠ .allowed → ∃ reason detail,
        result = .denied reason detail ∧
          reason.code = some (standingCode (lineageStanding revocation leaf chain))) ∧
      (standingCode (lineageStanding revocation leaf chain) = .allowed →
        if expiresAt.wholeTimestamp ≤ now.wholeTimestamp then
          ∃ detail, result = .denied .leafExpired detail
        else ∃ response, result = .issued response) := by
  have named : (presentation leaf chain).names maxLineageDepth =
      some ((leaf :: ancestors).reverse.map Presented.vaidId) :=
    (Presentation.names_eq_some_iff _ (by decide) _).mpr ⟨ancestors, lineage, rfl⟩
  obtain ⟨root, rest, whole, _⟩ := JwtBridge.root_first leaf ancestors
  have resolved : ((leaf :: ancestors).reverse.map Presented.vaidId).mapM
      (chainDoc leaf.dict (bundleOf chain)) = some ((root :: rest).map Presented.dict) := by
    rw [mapM_chainDoc, ← whole]
    exact congrArg (Option.map (List.map Presented.dict))
      ((presentation leaf chain).mapM_docOf (lineage.docOf _))
  obtain ⟨hash, hashed⟩ : ∃ hash,
      JwtBridge.chainSha256 ((root :: rest).map Presented.dict) = .ok hash := by
    obtain ⟨canonical, dumped⟩ := dumps_ok documented ((isCanonicalizable_arr
      (((root :: rest).map Presented.dict).map Json.obj)).mpr (by
        intro v member
        obtain ⟨dict, inDocs, rfl⟩ := List.mem_map.mp member
        obtain ⟨d, inLineage, rfl⟩ := List.mem_map.mp inDocs
        exact canonicalizable d (List.mem_reverse.mp (whole ▸ inLineage))))
    exact ⟨_, by rw [JwtBridge.chainSha256, dumped]; rfl⟩
  unfold JwtBridge.issueStanding lineageStanding
  simp only [assembleLineage_ok, named, Raising.ok_bind, Option.elim_some]
  cases standing : revocation ((leaf :: ancestors).reverse.map Presented.vaidId) with
  | revoked => exact ⟨_, rfl, fun _ => ⟨_, _, rfl, rfl⟩, nofun⟩
  | unavailable => exact ⟨_, rfl, fun _ => ⟨_, _, rfl, rfl⟩, nofun⟩
  | notRevoked =>
    simp only [resolved, JwtBridge.issueToken_eq, hashed, JwtBridge.parse_of_expiresAt reads,
      Raising.ok_bind]
    have late : min (now.wholeTimestamp + issuance.defaultTtlSeconds) expiresAt.wholeTimestamp ≤
        now.wholeTimestamp ↔ expiresAt.wholeTimestamp ≤ now.wholeTimestamp := by omega
    simp only [late]
    split
    · exact ⟨_, rfl, fun refused => absurd rfl refused, fun _ => ⟨_, rfl⟩⟩
    · obtain ⟨token, signed⟩ := signs (JwtBridge.claimsOf issuance audience now.wholeTimestamp
        (min (now.wholeTimestamp + issuance.defaultTtlSeconds) expiresAt.wholeTimestamp) leaf root rest
        hash)
      rw [signed]
      exact ⟨_, rfl, fun refused => absurd rfl refused, fun _ => ⟨_, rfl⟩⟩

/-- The three bearers return, and the first two the same code. Where it refuses, the bridge
denies with the reason of that code. Where it allows, the bridge issues a token, unless the
leaf's life ends in the current whole second. -/
theorem bearers_agree {issuers : List (PyStr × Bytes)} {message trustConfig : Dict}
    (inYears : ∀ d ∈ leaf :: chain, d.InYears) (configured : Configured issuers)
    (documented : CanonicalizesDocumented) (collisionFree : CollisionFree issuers)
    (carries : Carries message leaf chain)
    (listed : trustConfig.get "trustedIssuers" = .arr (issuers.map issuerEntry))
    (revocation : List PyStr → RevocationStatus) (now clock : UtcDatetime) (requireVaid : Bool)
    {audience : PyStr} (named : audience ≠ []) {tokenType : Option PyStr}
    (acceptable : ∀ t ∈ tokenType, t = JwtBridge.issuedTokenTypeJwt) {issuance : JwtBridge.Issuance}
    (signs : ∀ claims, ∃ token, issuance.sign claims = .ok token)
    (positive : 0 < issuance.defaultTtlSeconds) :
    ∃ keys a b c, fromRawKeys issuers = .ok keys ∧
      verifyA2aMessage message trustConfig revocation none (some now) clock requireVaid = .ok a ∧
      Adk.verifyPresentation (some ⟨leaf.dict, chain.map Presented.dict⟩) keys revocation none none
        (some now) clock = .ok b ∧
      JwtBridge.exchange ⟨some leaf.dict, chain.map Presented.dict, some audience, tokenType⟩ keys
        revocation issuance (some now) clock = .ok c ∧
      b.code.value = a.code.value ∧
      (a.code ≠ .allowed → ∃ reason detail, c = .denied reason detail ∧ reason.code = some a.code) ∧
      (a.code = .allowed → ∃ expiresAt, leaf.expiresAt = some expiresAt ∧
        if expiresAt.wholeTimestamp ≤ now.wholeTimestamp then ∃ detail, c = .denied .leafExpired detail
        else ∃ response, c = .issued response) := by
  obtain ⟨keys, loads, text⟩ := loadIssuers_ok configured documented collisionFree
  have loadsA2a : buildKeyResolver trustConfig = .ok keys := by
    have entries : iter (if truthy (trustConfig.get "trustedIssuers") then
        trustConfig.get "trustedIssuers" else .arr []) = .ok (issuers.map issuerEntry) := by
      rw [listed]
      cases issuers <;> rfl
    rw [buildKeyResolver, entries, Raising.ok_bind, loads]
  have timely : ∀ d ∈ leaf :: chain, d.Timely := fun d member =>
    Presented.timely_of_inYears (inYears d member)
  obtain ⟨fault, kind, checked⟩ := checkBearer_ok now text timely
  have a2a : verifyA2aMessage message trustConfig revocation none (some now) clock requireVaid =
      verifyPresented keys revocation none now leaf.dict (chain.map Presented.dict) :=
    verifyA2aMessage_carries loadsA2a carries revocation none (some now) clock requireVaid
  have bridge : JwtBridge.exchange
      ⟨some leaf.dict, chain.map Presented.dict, some audience, tokenType⟩ keys revocation issuance
        (some now) clock = JwtBridge.exchangePresented keys revocation issuance audience now leaf.dict
          (chain.map Presented.dict) := by
    have accepted : tokenType.any (fun t => t ≠ JwtBridge.issuedTokenTypeJwt) = false := by
      cases tokenType with
      | none => rfl
      | some t => simp [acceptable t rfl]
    obtain ⟨c, audience, rfl⟩ := List.exists_cons_of_ne_nil named
    simp only [JwtBridge.exchange, accepted, Bool.false_eq_true, if_false, Option.getD_some]
  refine ⟨keys, ?_⟩
  rw [a2a, bridge, verifyPresented_eq, JwtBridge.exchangePresented_eq, Adk.verifyPresentation,
    Adk.verifyPresented_eq, Option.getD_some, checked, checked, checked]
  cases fault with
  | some fault =>
    obtain ⟨reason, detail, denies, corresponds⟩ := JwtBridge.report_denies keys leaf.dict fault
    have code : (report keys leaf.dict fault).code = codeOf fault.kind := by rw [report_eq]; rfl
    refine ⟨_, _, _, loads _ _, rfl, rfl, rfl, ?_, fun _ => ⟨reason, detail, denies, ?_⟩, ?_⟩
    · rw [Adk.report_code, codeOf_value, code]
    · rw [code]
      exact corresponds
    · intro allowed
      rw [code] at allowed
      exact absurd allowed (codeOf_ne fault.kind)
  | none =>
    obtain ⟨ancestors, expiresAt, lineage, canonicalizable, reads⟩ := of_faultSteps documented kind.symm
    obtain ⟨a, returnsA, codeA⟩ := verifyStanding_code revocation leaf chain
    obtain ⟨b, returnsB, codeB⟩ := Adk.verifyStanding_ok revocation leaf chain
    obtain ⟨c, returnsC, denied, issued⟩ := JwtBridge.issueStanding_ok now documented
      revocation audience signs positive lineage canonicalizable reads
    refine ⟨a, b, c, loads _ _, returnsA, returnsB, returnsC, ?_, codeA ▸ denied,
      fun allowed => ⟨expiresAt, reads, issued (codeA ▸ allowed)⟩⟩
    rw [codeA, codeB]
    cases lineageStanding revocation leaf chain <;> rfl

end Bearers

section Example

attribute [local instance] pairLibraries

def pairIssuers : List (PyStr × Bytes) := [(py "vaid.example", pairKey)]

theorem bearers_agree_late : ∃ keys a b c, fromRawKeys pairIssuers = .ok keys ∧
    verifyA2aMessage pairMessage pairConfig (fun _ => .notRevoked) none
      (some pairInstant) 0 true = .ok a ∧
    Adk.verifyPresentation (some ⟨pairChild.dict, [pairRoot.dict]⟩) keys (fun _ => .notRevoked) none none
      (some pairInstant) 0 = .ok b ∧
    JwtBridge.exchange ⟨some pairChild.dict, [pairRoot.dict], some (py "api"), none⟩ keys
      (fun _ => .notRevoked) JwtBridge.lateIssuance (some pairInstant) 0 = .ok c ∧
    b.code.value = a.code.value := by
  have configured : Configured pairIssuers := by
    refine ⟨by simp [pairIssuers, pairKey, ed25519PublicKeyBytes], by simp [pairIssuers], ?_⟩
    intro i member c inDomain
    cases List.mem_singleton.mp member
    exact List.all_eq_true.mp (show isUnicode (py "vaid.example") = true by decide) c inDomain
  have collisionFree : CollisionFree pairIssuers := by
    intro i hi j hj _
    rw [List.mem_singleton.mp hi, List.mem_singleton.mp hj]
  have listed : pairConfig.get "trustedIssuers" = .arr (pairIssuers.map issuerEntry) := rfl
  have named : py "api" ≠ [] := by decide
  have acceptable : ∀ t ∈ (none : Option PyStr), t = JwtBridge.issuedTokenTypeJwt := by simp
  have signs : ∀ claims, ∃ token, JwtBridge.lateIssuance.sign claims = .ok token :=
    fun _ => ⟨_, rfl⟩
  obtain ⟨keys, a, b, c, loads, returnsA, returnsB, returnsC, same, _⟩ :=
    bearers_agree pair_inYears configured pair_documented collisionFree pair_carried listed
      (fun _ => .notRevoked) pairInstant 0 true named acceptable signs (by decide)
  exact ⟨keys, a, b, c, loads, returnsA, returnsB, returnsC, same⟩

end Example

end VaidSuite.Python
