import VaidSuite.Python.A2a
import VaidSuite.Python.Procedure

/-! The A2A verifier decides an ordered procedure: its code is that of the first step that
fails. What it allows, it has checked of every document on the lineage. -/
namespace VaidSuite.Python

open Guards (firstRefusal)

section Verifier

variable [Libraries]

/-- A configuration that loads, and whose trust domains are Unicode text. -/
structure ValidTrustConfig (trustConfig : Dict) (keys : TrustedIssuerMap) : Prop where
  loads : buildKeyResolver trustConfig = .ok keys
  text : ∀ thumbprint issuer, keys.lookup thumbprint = some issuer → Encodable issuer.trustDomain

/-- The message holds this leaf, and this presented chain or none. -/
def Carries (message : Dict) (leaf : Presented) (chain : List Presented) : Prop :=
  ∃ metadata : Dict, message.get "metadata" = .obj metadata ∧
    metadata.get metadataVaidKey = .obj leaf.dict ∧
      (metadata.get metadataChainKey = .null ∧ chain = [] ∨
        metadata.get metadataChainKey = .arr (chain.map (fun d => .obj d.dict)))

def leafSteps (keys : TrustedIssuerMap) (leaf : Presented) (now : UtcDatetime) :
    List (Bool × VerifyCode) :=
  [(leaf.isBound keys, .issuerMismatch),
    (leaf.trustedAuthenticity keys == .valid,
      authenticityVerdictToCode (leaf.trustedAuthenticity keys)),
    (!leaf.isExpired now, .expired)]

/-- How a lineage is refused that is not known to stand. -/
def standingRefusal : RevocationStatus → VerifyCode
  | .revoked => .revoked
  | _ => .indeterminate

def presentedSteps (keys : TrustedIssuerMap) (revocation : List PyStr → RevocationStatus)
    (requestedAction : Option PyStr) (leaf : Presented) (chain : List Presented)
    (now : UtcDatetime) : List (Bool × VerifyCode) :=
  [((leaf :: chain).all (fun d => d.claimed.isSome), .unknownScopeKind),
    (chain.all (fun d => !d.isBoundElsewhere keys), .issuerMismatch),
    (chainVerdict keys.trust leaf chain now == .attenuated,
      chainVerdictToCode (chainVerdict keys.trust leaf chain now)),
    (requestedAction.all leaf.inScope, .outOfScope),
    (lineageStanding revocation leaf chain == .notRevoked,
      standingRefusal (lineageStanding revocation leaf chain))]

def procedure (keys : TrustedIssuerMap) (revocation : List PyStr → RevocationStatus)
    (requestedAction : Option PyStr) (leaf : Presented) (chain : List Presented)
    (now : UtcDatetime) : List (Bool × VerifyCode) :=
  leafSteps keys leaf now ++ presentedSteps keys revocation requestedAction leaf chain now

/-- A result whose code decides whether it allows. -/
def resultOf (code : VerifyCode) (reason : PyStr) : VerifyResult := ⟨code == .allowed, code, reason⟩

omit [Libraries] in
theorem deny_eq {code : VerifyCode} (refuses : code ≠ .allowed) (reason : PyStr) :
    deny code reason = resultOf code reason := by
  rw [deny, resultOf, beq_eq_false_iff_ne.mpr refuses]

omit [Libraries] in
theorem authenticityVerdictToCode_ne (verdict : VaidVerdict) :
    authenticityVerdictToCode verdict ≠ .allowed := by
  cases verdict <;> decide

omit [Libraries] in
theorem chainVerdictToCode_ne (verdict : ChainVerification) :
    chainVerdictToCode verdict ≠ .allowed := by
  cases verdict <;> decide

theorem verifyStanding_ok (revocation : List PyStr → RevocationStatus) (requestedAction : Option PyStr)
    (leaf : Presented) (chain : List Presented) : ∃ reason,
      verifyStanding revocation requestedAction leaf.dict (bundleOf chain) =
        .ok (resultOf (firstRefusal .allowed
          [(requestedAction.all leaf.inScope, .outOfScope),
            (lineageStanding revocation leaf chain == .notRevoked,
              standingRefusal (lineageStanding revocation leaf chain))]) reason) := by
  unfold verifyStanding lineageStanding
  simp only [leaf.isInScope_ok, assembleLineage_ok]
  generalize (presentation leaf chain).names maxLineageDepth = names
  cases requestedAction with
  | none =>
    cases names with
    | none => exact ⟨_, rfl⟩
    | some ids =>
      rw [Option.elim_some]
      cases answer : revocation ids <;> simp only [Raising.ok_bind, answer, pure_bind] <;> exact ⟨_, rfl⟩
  | some action =>
    simp only [Option.all_some]
    cases leaf.inScope action with
    | false => exact ⟨_, rfl⟩
    | true =>
      cases names with
      | none => exact ⟨_, rfl⟩
      | some ids =>
        rw [Option.elim_some]
        cases answer : revocation ids <;> simp only [Raising.ok_bind, answer] <;> exact ⟨_, rfl⟩

def codeOf : FaultKind → VerifyCode
  | .issuerMismatch => .issuerMismatch
  | .authenticity verdict => authenticityVerdictToCode verdict
  | .expired => .expired
  | .unknownScopeKind => .unknownScopeKind
  | .chain verdict => chainVerdictToCode verdict

/-- How the verifier reports what stops it. -/
def report (keys : TrustedIssuerMap) (leaf : Dict) : Fault → VerifyResult
  | .unknownKey => deny .issuerMismatch (py "no trusted kernel key for thumbprint " ++
      Libraries.repr (leaf.get "kernel_key_thumbprint") ++
      py ", this issuer is not in trust_config.trustedIssuers")
  | .leafMisbound boundDomain =>
    deny .issuerMismatch (misboundReason (py "leaf") leaf (.str boundDomain))
  | .leafAuthenticity verdict => deny (authenticityVerdictToCode verdict)
      (py ("leaf authenticity check failed: " ++ verdict.code))
  | .leafExpired => deny .expired (py "leaf VAID has passed its own expires_at")
  | .unknownScopeKind doc => deny .unknownScopeKind (named doc ++
      py (" carries a scope_boundary entry " ++
        "of a kind this verifier does not recognise: refused rather than " ++
        "evaluated from the entries it could read, because an " ++
        "unrecognised kind can only narrow the authority granted"))
  | .misbound doc => deny .issuerMismatch (misboundReason (named doc) doc
      (((doc.get "kernel_key_thumbprint").asStr.bind keys.trustDomainFor).elim .null .str))
  | .chain verdict => deny (chainVerdictToCode verdict)
      (py "chain verification did not attenuate: " ++ chainVerdictValue verdict)

theorem report_eq (keys : TrustedIssuerMap) (leaf : Dict) (fault : Fault) :
    report keys leaf fault = resultOf (codeOf fault.kind) (report keys leaf fault).reason := by
  cases fault with
  | leafAuthenticity verdict => exact deny_eq (authenticityVerdictToCode_ne verdict) _
  | chain verdict => exact deny_eq (chainVerdictToCode_ne verdict) _
  | _ => rfl

omit [Libraries] in
theorem codeOf_ne (kind : FaultKind) : codeOf kind ≠ .allowed := by
  cases kind with
  | authenticity verdict => exact authenticityVerdictToCode_ne verdict
  | chain verdict => exact chainVerdictToCode_ne verdict
  | _ => exact nofun

theorem verifyPresented_eq (keys : TrustedIssuerMap) (revocation : List PyStr → RevocationStatus)
    (requestedAction : Option PyStr) (now : UtcDatetime) (leaf : Dict) (chainRaw : List Dict) :
    verifyPresented keys revocation requestedAction now leaf chainRaw =
      checkBearer (report keys leaf) (verifyStanding revocation requestedAction leaf) keys now leaf
        chainRaw := rfl

theorem verifyPresented_ok {keys : TrustedIssuerMap} {leaf : Presented} {chain : List Presented}
    (revocation : List PyStr → RevocationStatus) (requestedAction : Option PyStr) (now : UtcDatetime)
    (text : ∀ t issuer, keys.lookup t = some issuer → Encodable issuer.trustDomain)
    (timely : ∀ d ∈ leaf :: chain, d.Timely) : ∃ reason,
      verifyPresented keys revocation requestedAction now leaf.dict (chain.map Presented.dict) =
        .ok (resultOf (firstRefusal .allowed
          (procedure keys revocation requestedAction leaf chain now)) reason) := by
  obtain ⟨fault, kind, checked⟩ := checkBearer_ok now text timely
  obtain ⟨reason, stands⟩ := verifyStanding_ok revocation requestedAction leaf chain
  let standing := firstRefusal VerifyCode.allowed
    [(requestedAction.all leaf.inScope, .outOfScope),
      (lineageStanding revocation leaf chain == .notRevoked,
        standingRefusal (lineageStanding revocation leaf chain))]
  have steps : firstRefusal .allowed (procedure keys revocation requestedAction leaf chain now) =
      (fault.map Fault.kind).elim standing codeOf := by
    rw [kind, ← Guards.firstRefusal_map (fun k : Option FaultKind => k.elim standing codeOf)]
    rfl
  rw [steps, verifyPresented_eq, checked]
  cases fault with
  | none => exact ⟨reason, stands⟩
  | some fault => exact ⟨_, congrArg Except.ok (report_eq keys leaf.dict fault)⟩

theorem verifyA2aMessage_carries {message trustConfig : Dict} {keys : TrustedIssuerMap}
    {leaf : Presented} {chain : List Presented} (loads : buildKeyResolver trustConfig = .ok keys)
    (carries : Carries message leaf chain) (revocation : List PyStr → RevocationStatus)
    (requestedAction : Option PyStr) (now : Option UtcDatetime) (clock : UtcDatetime)
    (requireVaid : Bool) :
    verifyA2aMessage message trustConfig revocation requestedAction now clock requireVaid =
      verifyPresented keys revocation requestedAction (now.getD clock) leaf.dict
        (chain.map Presented.dict) := by
  obtain ⟨metadata, inMessage, leafValue, chainValue⟩ := carries
  have presented : presentedChain metadata = some (chain.map Presented.dict) := by
    rcases chainValue with ⟨absent, rfl⟩ | listed
    · rw [presentedChain, absent]
      rfl
    · rw [presentedChain, listed]
      clear listed
      induction chain with
      | nil => rfl
      | cons d chain ih =>
        dsimp only at ih ⊢
        rw [List.map_cons, List.mapM_cons, ih]
        rfl
  simp only [verifyA2aMessage, loads, inMessage, leafValue, presented, Raising.ok_bind]

/-- What has been checked of a message that is allowed, over the whole lineage and over
every document presented beside it. -/
structure Authorized (keys : TrustedIssuerMap) (revocation : List PyStr → RevocationStatus)
    (requestedAction : Option PyStr) (leaf : Presented) (chain : List Presented)
    (now : UtcDatetime) (ancestors : List Presented) : Prop where
  lineage : (presentation leaf chain).IsLineage maxLineageDepth ancestors
  readable : ∀ d ∈ leaf :: chain, d.claimed.isSome = true
  bound : ∀ d ∈ chain, d.isBoundElsewhere keys = false
  authentic : ∀ d ∈ leaf :: kept chain,
    d.isBound keys = true ∧ d.trustedAuthenticity keys = .valid
  sameIssuer : ∀ a ∈ ancestors, a.thumbprint = leaf.thumbprint ∧ a.trustDomain = leaf.trustDomain ∧
    a.tenantId = leaf.tenantId
  unexpired : ∀ d ∈ leaf :: ancestors, d.isExpired now = false
  scope : ∀ a ∈ ancestors, ∀ resource, leaf.inScope resource = true → a.inScope resource = true
  action : ∀ d ∈ leaf :: ancestors, requestedAction.all d.inScope = true
  capabilities : ∀ a ∈ ancestors, leaf.capabilitySet ⊆ a.capabilitySet
  notRevoked : revocation ((leaf :: ancestors).reverse.map Presented.vaidId) = .notRevoked

section Allowed

variable {keys : TrustedIssuerMap} {leaf : Presented} {chain : List Presented}

theorem trusted_of_isAuthentic {d : Presented} (authentic : d.isAuthentic keys.trust = true)
    (bound : d.isBoundElsewhere keys = false) :
    d.isBound keys = true ∧ d.trustedAuthenticity keys = .valid := by
  obtain ⟨key, found, valid⟩ := (Option.any_eq_true _ _).mp authentic
  obtain ⟨issuer, listed, rfl⟩ := Option.map_eq_some_iff.mp found
  rw [Presented.isBoundElsewhere, listed, Option.any_some, bne_eq_false_iff_eq] at bound
  rw [Presented.isBound, Presented.trustedAuthenticity, listed]
  exact ⟨beq_iff_eq.mpr bound, eq_of_beq valid⟩

variable (keys leaf chain) in
theorem procedure_refuse (revocation : List PyStr → RevocationStatus)
    (requestedAction : Option PyStr) (now : UtcDatetime) :
    ∀ s ∈ procedure keys revocation requestedAction leaf chain now, s.2 ≠ .allowed := by
  have standing : ∀ status, standingRefusal status ≠ .allowed := by
    intro status
    cases status <;> decide
  simp [procedure, leafSteps, presentedSteps, authenticityVerdictToCode_ne, chainVerdictToCode_ne,
    standing]

theorem authorized_of_passes {revocation : List PyStr → RevocationStatus}
    {requestedAction : Option PyStr} {now : UtcDatetime}
    (passes : ∀ s ∈ procedure keys revocation requestedAction leaf chain now, s.1 = true) :
    ∃ ancestors, Authorized keys revocation requestedAction leaf chain now ancestors := by
  simp only [procedure, leafSteps, presentedSteps, List.forall_mem_append, List.forall_mem_cons,
    List.not_mem_nil, false_implies, implies_true, and_true, beq_iff_eq, Bool.not_eq_true',
    List.all_eq_true] at passes
  obtain ⟨⟨leafBound, leafAuthentic, leafUnexpired⟩, readable, bound, attenuated, action, standing⟩ :=
    passes
  have steps := (Guards.firstRefusal_eq_accepted_iff _ _ (chainSteps_refuse leaf chain keys.trust now)).mp
    attenuated
  obtain ⟨_, keptAuthentic, ancestors, lineage, unlapsed, hops⟩ :=
    ((presentation leaf chain).steps_pass_iff _ _ (by decide)).mp steps
  have delegated : ∀ a ∈ ancestors, Presented.Delegated a leaf :=
    (List.pairwise_cons.mp (Presented.pairwise_delegated hops)).1
  have names : (presentation leaf chain).names maxLineageDepth =
      some ((leaf :: ancestors).reverse.map Presented.vaidId) :=
    (Presentation.names_eq_some_iff _ (by decide) _).mpr ⟨ancestors, lineage, rfl⟩
  rw [lineageStanding, names, Option.elim_some] at standing
  refine ⟨ancestors, lineage, List.forall_mem_cons.mpr readable, bound, ?_, ?_, ?_, ?_, ?_, ?_, standing⟩
  · refine List.forall_mem_cons.mpr ⟨⟨leafBound, leafAuthentic⟩, fun d member => ?_⟩
    exact trusted_of_isAuthentic (keptAuthentic d member) (bound d (mem_of_mem_kept member))
  · exact fun a member =>
      ⟨(delegated a member).thumbprint, (delegated a member).trustDomain, (delegated a member).tenantId⟩
  · exact List.forall_mem_cons.mpr ⟨leafUnexpired, unlapsed⟩
  · exact fun a member resource held => (delegated a member).inScope held
  · refine List.forall_mem_cons.mpr ⟨action, fun a member => ?_⟩
    cases requestedAction with
    | none => rfl
    | some requested => exact (delegated a member).inScope action
  · exact fun a member => (delegated a member).capabilities

/-- The verifier runs the procedure: its code is that of the first step that fails, and it
allows exactly when none does. A verdict that the leaf decides depends on nothing else that
was presented. What is allowed is authorized over its whole lineage. -/
theorem verifyA2aMessage_decides {message trustConfig : Dict} (valid : ValidTrustConfig trustConfig keys)
    (carries : Carries message leaf chain) (inYears : ∀ d ∈ leaf :: chain, d.InYears)
    (revocation : List PyStr → RevocationStatus) (requestedAction : Option PyStr)
    (now : Option UtcDatetime) (clock : UtcDatetime) (requireVaid : Bool) :
    ∃ result, verifyA2aMessage message trustConfig revocation requestedAction now clock requireVaid =
        .ok result ∧
      result.code = firstRefusal .allowed
        (procedure keys revocation requestedAction leaf chain (now.getD clock)) ∧
      (result.allowed = true ↔ result.code = .allowed) ∧
      (result.code = .allowed ↔
        ∀ s ∈ procedure keys revocation requestedAction leaf chain (now.getD clock), s.1 = true) ∧
      ((∃ s ∈ leafSteps keys leaf (now.getD clock), s.1 = false) →
        result.code = firstRefusal .allowed (leafSteps keys leaf (now.getD clock))) ∧
      (result.code = .allowed → ∃ ancestors,
        Authorized keys revocation requestedAction leaf chain (now.getD clock) ancestors) := by
  obtain ⟨reason, verdict⟩ := verifyPresented_ok revocation requestedAction (now.getD clock)
    valid.text (fun d member => Presented.timely_of_inYears (inYears d member))
  have decides := Guards.firstRefusal_eq_accepted_iff VerifyCode.allowed _
    (procedure_refuse keys leaf chain revocation requestedAction (now.getD clock))
  refine ⟨resultOf (firstRefusal .allowed
      (procedure keys revocation requestedAction leaf chain (now.getD clock))) reason, ?_, rfl,
    beq_iff_eq, decides, ?_, fun allowed => authorized_of_passes (decides.mp allowed)⟩
  · rw [verifyA2aMessage_carries valid.loads carries, verdict]
  · intro refused
    rw [resultOf, procedure, Guards.firstRefusal_append]
    exact Guards.firstRefusal_of_refused _ _ refused

end Allowed

end Verifier

section Example

attribute [local instance] pairLibraries

def pairConfig : Dict :=
  [(py "trustedIssuers", .arr [issuerEntry (py "vaid.example", pairKey)])]

def pairMessage : Dict :=
  [(py "metadata", .obj [(py metadataVaidKey, .obj pairChildDict),
    (py metadataChainKey, .arr [.obj pairRootDict])])]

theorem pair_valid : ValidTrustConfig pairConfig pairKeys := ⟨by decide +kernel, pair_text⟩

theorem pair_carried : Carries pairMessage pairChild [pairRoot] :=
  ⟨[(py metadataVaidKey, .obj pairChildDict), (py metadataChainKey, .arr [.obj pairRootDict])],
    rfl, rfl, .inr rfl⟩

theorem verifyA2aMessage_decides_pair : ∃ result,
    verifyA2aMessage pairMessage pairConfig (fun _ => .notRevoked) (some (py "lab/notes/today"))
      (some pairInstant) 0 true = .ok result ∧ result.code = .allowed ∧
    ∃ ancestors, Authorized pairKeys (fun _ => .notRevoked) (some (py "lab/notes/today")) pairChild
      [pairRoot] pairInstant ancestors := by
  obtain ⟨result, returned, _, _, allows, _, authorizes⟩ := verifyA2aMessage_decides pair_valid
    pair_carried pair_inYears (fun _ => .notRevoked) (some (py "lab/notes/today")) (some pairInstant) 0
    true
  have passes := pair_passes
  simp only [faultSteps, documentSteps, List.forall_mem_append, List.forall_mem_cons] at passes
  obtain ⟨⟨bound, authentic, unexpired, _⟩, readable, unmisbound, attenuated, _⟩ := passes
  have inScope : (some (py "lab/notes/today")).all pairChild.inScope = true := by decide +kernel
  have stands : (lineageStanding (fun _ => .notRevoked) pairChild [pairRoot] == .notRevoked) = true := by
    decide +kernel
  have allowed := allows.mpr (by
    simp only [procedure, leafSteps, presentedSteps, List.forall_mem_append, List.forall_mem_cons]
    exact ⟨⟨bound, authentic, unexpired, by simp⟩, readable, unmisbound, attenuated, inScope, stands,
      by simp⟩)
  exact ⟨result, returned, allowed, authorizes allowed⟩

end Example

end VaidSuite.Python
