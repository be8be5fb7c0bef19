import VaidSuite.Python.IssuersExact
import VaidSuite.Python.Totality

/-! The A2A and the ADK verifier refuse what is presented, or raise: exactly when each
returns, whatever members the documents lack or mistype. -/
namespace VaidSuite.Python

open Raising (Returns Sound)

/-! ### Keys that are bound to trust domains -/

/-- What a resolver with `resolve_key` and `trust_domain_for` answers. Of what is not a string,
`resolve_key` promises nothing. -/
structure DomainBinding where
  resolveText : PyStr → Option Bytes
  resolveOther : PyValue → Raises (Option Bytes)
  trustDomainFor : PyStr → Option PyStr

namespace DomainBinding

def resolveKey (keys : DomainBinding) : KernelKeyResolver
  | .str thumbprint => .ok (keys.resolveText thumbprint)
  | other => keys.resolveOther other

/-- What `trust_domain_for` returns, as a value. -/
def boundDomain (keys : DomainBinding) (thumbprint : PyValue) : PyValue :=
  (thumbprint.asStr.bind keys.trustDomainFor).elim .null .str

/-- A document whose key is bound to another trust domain than it claims. -/
def isMisbound (keys : DomainBinding) (doc : Dict) : Bool :=
  match (doc.get "kernel_key_thumbprint").asStr.bind keys.trustDomainFor with
  | none => false
  | some boundDomain => !pyEq (.str boundDomain) (doc.get "trust_domain")

end DomainBinding

/-- The trusted issuers as such a resolver. -/
def TrustedIssuerMap.binding (keys : TrustedIssuerMap) : DomainBinding where
  resolveText thumbprint := (keys.lookup thumbprint).map TrustedIssuer.publicKey
  resolveOther := keys.resolveKey
  trustDomainFor := keys.trustDomainFor

theorem binding_resolveKey (keys : TrustedIssuerMap) : keys.binding.resolveKey = keys.resolveKey := by
  funext v
  cases v <;> rfl

theorem binding_isMisbound (keys : TrustedIssuerMap) : keys.binding.isMisbound = isMisbound keys := rfl

section Bearers

variable [Libraries]

/-- What stops a bearer, with what its report names. -/
inductive BoundFault where
  | unknownKey
  | leafMisbound (boundDomain : PyValue)
  | leafAuthenticity (verdict : VaidVerdict)
  | leafExpired
  | unknownScopeKind (doc : Dict)
  | misbound (doc : Dict)
  | chain (verdict : ChainVerification)

/-- The steps of `checkBearer`, under any resolver that binds its keys to trust domains. -/
def checkBound {R : Type} (report : BoundFault → R) (goOn : PresentedBundle → Raises R)
    (keys : DomainBinding) (now : UtcDatetime) (leaf : Dict) (chain : List Dict) : Raises R := do
  match (leaf.get "kernel_key_thumbprint").asStr.bind keys.resolveText with
  | none => return report .unknownKey
  | some key =>
    let boundDomain := keys.boundDomain (leaf.get "kernel_key_thumbprint")
    if !pyEq boundDomain (leaf.get "trust_domain") then return report (.leafMisbound boundDomain)
    let authenticity ← verifyVaidAuthenticityGraded key leaf
    if authenticity ≠ .valid then return report (.leafAuthenticity authenticity)
    if ← isExpiredAt leaf now then return report .leafExpired
    match (leaf :: chain).find? (fun doc => !hasEvaluableBoundary doc) with
    | some doc => return report (.unknownScopeKind doc)
    | none =>
      match chain.find? keys.isMisbound with
      | some doc => return report (.misbound doc)
      | none =>
        let bundle ← PresentedBundle.new chain
        let verdict ← verifyChainAt keys.resolveKey leaf bundle .empty now
        if verdict ≠ .attenuated then return report (.chain verdict)
        goOn bundle

/-- The checks of a bearer, once a key is found for the leaf that is bound to the domain it claims. -/
def bearerRuns (keys : DomainBinding) (now : UtcDatetime) (leaf : Dict) (chain : List Dict) (key : Bytes) :
    List (Prop × Prop) :=
  [(Sound (authenticityChecks key leaf), verifyVaidAuthenticityGraded key leaf = .ok .valid),
    (HasFittingExpiry leaf, isExpiredAt leaf now = .ok false),
    (True, ∀ d ∈ leaf :: chain, hasEvaluableBoundary d = true),
    (True, ∀ d ∈ chain, keys.isMisbound d = false),
    (∀ d ∈ chain, HasShape d, True),
    (Sound (chainRuns keys.resolveKey now leaf (InsertionMap.ofList vaidIdOf chain)), True)]

/-- Documents of which every check that a bearer reaches has what it needs. -/
def Presentable (keys : DomainBinding) (now : UtcDatetime) (leaf : Dict) (chain : List Dict) : Prop :=
  ∀ key, (leaf.get "kernel_key_thumbprint").asStr.bind keys.resolveText = some key →
    pyEq (keys.boundDomain (leaf.get "kernel_key_thumbprint")) (leaf.get "trust_domain") = true →
      Sound (bearerRuns keys now leaf chain key)

omit [Libraries] in
theorem mem_documents {documents : List Dict} {d : Dict}
    (member : d ∈ PresentedBundle.documents (InsertionMap.ofList vaidIdOf documents)) : d ∈ documents := by
  obtain ⟨e, filed, rfl⟩ := List.mem_map.mp member
  exact (InsertionMap.mem_ofList filed).2

theorem authenticate_of_valid {keys : DomainBinding} {leaf : Dict} {key : Bytes}
    (found : (leaf.get "kernel_key_thumbprint").asStr.bind keys.resolveText = some key)
    (valid : verifyVaidAuthenticityGraded key leaf = .ok .valid) :
    authenticate keys.resolveKey leaf = .ok true := by
  obtain ⟨t, claimed, listed⟩ := Option.bind_eq_some_iff.mp found
  have thumbprint : leaf.get "kernel_key_thumbprint" = .str t := by
    rw [Presented.str_of_asStr (Option.isSome_of_eq_some claimed), claimed, Option.getD_some]
  rw [authenticate, thumbprint, DomainBinding.resolveKey, listed, Raising.ok_bind]
  simp only [verifyVaidAuthenticity, valid, Raising.ok_bind]
  rfl

theorem returns_checkBound {R : Type} {report : BoundFault → R} {goOn : PresentedBundle → Raises R}
    {keys : DomainBinding} {now : UtcDatetime} {leaf : Dict} {chain : List Dict}
    (goesOn : ∀ bundle, HasShape leaf → hasEvaluableBoundary leaf = true → Returns (goOn bundle)) :
    Returns (checkBound report goOn keys now leaf chain) ↔ Presentable keys now leaf chain := by
  unfold checkBound Presentable
  cases found : (leaf.get "kernel_key_thumbprint").asStr.bind keys.resolveText with
  | none => simp
  | some key =>
    simp only [Option.some.injEq, forall_eq']
    rw [Raising.returns_unless_iff (Raising.returns_pure _)]
    refine forall_congr' (fun bound => ?_)
    rw [Raising.returns_verdict_iff, bearerRuns, Raising.sound_cons, returns_authenticity]
    refine and_congr_right (fun _ => forall_congr' (fun valid => ?_))
    rw [Raising.returns_lapse_iff (Raising.returns_pure _), Raising.sound_cons, returns_isExpiredAt]
    refine and_congr_right (fun expiry => forall_congr' (fun _ => ?_))
    rw [Raising.sound_cons, true_and]
    cases unreadable : (leaf :: chain).find? (fun doc => !hasEvaluableBoundary doc) with
    | some doc =>
      refine iff_of_true (Raising.returns_pure _) (fun all => ?_)
      have refused := List.find?_some unreadable
      rw [all doc (List.mem_of_find?_eq_some unreadable)] at refused
      cases refused
    | none =>
      have evaluable : ∀ d ∈ leaf :: chain, hasEvaluableBoundary d = true := by
        simpa using List.find?_eq_none.mp unreadable
      rw [Raising.sound_cons, true_and, forall_prop_of_true evaluable]
      cases misbound : chain.find? keys.isMisbound with
      | some doc =>
        refine iff_of_true (Raising.returns_pure _) (fun all => ?_)
        have refused := List.find?_some misbound
        rw [all doc (List.mem_of_find?_eq_some misbound)] at refused
        cases refused
      | none =>
        have bindings : ∀ d ∈ chain, keys.isMisbound d = false := by
          simpa using List.find?_eq_none.mp misbound
        rw [forall_prop_of_true bindings, Raising.sound_cons, Raising.sound_cons, true_imp_iff,
          ← returns_new chain]
        by_cases shaped : ∀ d ∈ chain, HasShape d
        · have ready : Ready leaf :=
            ⟨vetted_of_valid valid, evaluable leaf List.mem_cons_self, expiry⟩
          have inBundle : ∀ d ∈ PresentedBundle.documents (InsertionMap.ofList vaidIdOf chain),
              hasEvaluableBoundary d = true :=
            fun d member => evaluable d (List.mem_cons_of_mem _ (mem_documents member))
          rw [new_eq shaped, Raising.ok_bind, Raising.returns_verdict_iff,
            returns_verifyChainAt ready (authenticate_of_valid found valid) inBundle]
          constructor
          · exact fun h => ⟨Raising.returns_ok _, h.1, fun _ => trivial⟩
          · exact fun h => ⟨h.2.1, fun _ => goesOn _ ready.shape ready.boundary⟩
        · rw [returns_new chain]
          refine iff_of_false (fun returned => shaped ?_) (fun h => shaped h.1)
          obtain ⟨bundle, made, _⟩ := Raising.returns_bind_iff.mp returned
          exact (returns_new chain).mp ⟨bundle, made⟩

/-- What stops a bearer with trusted issuers. -/
def Fault.bound : Fault → BoundFault
  | .unknownKey => .unknownKey
  | .leafMisbound boundDomain => .leafMisbound (.str boundDomain)
  | .leafAuthenticity verdict => .leafAuthenticity verdict
  | .leafExpired => .leafExpired
  | .unknownScopeKind doc => .unknownScopeKind doc
  | .misbound doc => .misbound doc
  | .chain verdict => .chain verdict

def BoundFault.fault : BoundFault → Fault
  | .unknownKey => .unknownKey
  | .leafMisbound boundDomain => .leafMisbound (boundDomain.asStr.getD [])
  | .leafAuthenticity verdict => .leafAuthenticity verdict
  | .leafExpired => .leafExpired
  | .unknownScopeKind doc => .unknownScopeKind doc
  | .misbound doc => .misbound doc
  | .chain verdict => .chain verdict

omit [Libraries] in
theorem fault_bound (fault : Fault) : fault.bound.fault = fault := by
  cases fault <;> rfl

theorem checkBearer_eq_checkBound {R : Type} {report : Fault → R} (report' : BoundFault → R)
    (same : ∀ fault, report' fault.bound = report fault) (goOn : PresentedBundle → Raises R)
    (keys : TrustedIssuerMap) (now : UtcDatetime) (leaf : Dict) (chain : List Dict) :
    checkBearer report goOn keys now leaf chain = checkBound report' goOn keys.binding now leaf chain := by
  have key : (leaf.get "kernel_key_thumbprint").asStr.bind keys.binding.resolveText =
      ((leaf.get "kernel_key_thumbprint").asStr.bind (fun t => keys.lookup t)).map TrustedIssuer.publicKey := by
    cases (leaf.get "kernel_key_thumbprint").asStr <;> rfl
  have domain : keys.binding.boundDomain (leaf.get "kernel_key_thumbprint") =
      (((leaf.get "kernel_key_thumbprint").asStr.bind (fun t => keys.lookup t)).map
        TrustedIssuer.trustDomain).elim .null .str := by
    unfold DomainBinding.boundDomain
    cases (leaf.get "kernel_key_thumbprint").asStr <;> rfl
  obtain rfl : report = fun fault => report' fault.bound := funext (fun fault => (same fault).symm)
  unfold checkBearer checkBound
  rw [key, domain, binding_resolveKey, binding_isMisbound]
  cases (leaf.get "kernel_key_thumbprint").asStr.bind (fun t => keys.lookup t) with
  | none => rfl
  | some issuer => rfl

theorem returns_checkBearer {R : Type} {report : Fault → R} {goOn : PresentedBundle → Raises R}
    {keys : TrustedIssuerMap} {now : UtcDatetime} {leaf : Dict} {chain : List Dict}
    (goesOn : ∀ bundle, HasShape leaf → hasEvaluableBoundary leaf = true → Returns (goOn bundle)) :
    Returns (checkBearer report goOn keys now leaf chain) ↔ Presentable keys.binding now leaf chain := by
  rw [checkBearer_eq_checkBound (fun f => report f.fault) (fun f => congrArg report (fault_bound f))]
  exact returns_checkBound goesOn

/-! ### The two verifiers -/

omit [Libraries] in
theorem returns_isInScope {leaf : Dict} (boundary : hasEvaluableBoundary leaf = true) (resource : PyStr) :
    Returns (isInScope leaf resource) := by
  obtain ⟨entries, listed⟩ := boundary_arr boundary
  have present : HasMember leaf "scope_boundary" := hasMember_of_get (by rw [listed]; exact nofun)
  rw [isInScope, item_eq present, listed]
  exact Raising.returns_ok _

theorem returns_verifyStanding (revocation : List PyStr → RevocationStatus) (requestedAction : Option PyStr)
    {leaf : Dict} (bundle : PresentedBundle) (shape : HasShape leaf)
    (boundary : hasEvaluableBoundary leaf = true) :
    Returns (verifyStanding revocation requestedAction leaf bundle) := by
  unfold verifyStanding
  rw [Raising.returns_check_iff (Raising.returns_pure _), assembleLineage_eq shape, Raising.ok_bind]
  refine ⟨?_, fun _ => ?_⟩
  · cases requestedAction with
    | none => exact Raising.returns_pure _
    | some action => exact returns_isInScope boundary action
  · cases assembleLoop bundle.resolveParent maxLineageDepth [vaidIdOf leaf] (parentOf leaf) with
    | none => exact Raising.returns_pure _
    | some lineage =>
      dsimp only
      cases revocation lineage <;> exact Raising.returns_pure _

def HoldsDicts (message leaf : Dict) (chain : List Dict) : Prop :=
  ∃ metadata : Dict, message.get "metadata" = .obj metadata ∧
    metadata.get metadataVaidKey = .obj leaf ∧ presentedChain metadata = some chain

def PresentableMessage (keys : DomainBinding) (now : UtcDatetime) (message : Dict) : Prop :=
  ∀ leaf chain, HoldsDicts message leaf chain → Presentable keys now leaf chain

theorem returns_verifyA2aMessage (message : Dict) {trustConfig : Dict} {keys : TrustedIssuerMap}
    (loads : buildKeyResolver trustConfig = .ok keys) (revocation : List PyStr → RevocationStatus)
    (requestedAction : Option PyStr) (now : Option UtcDatetime) (clock : UtcDatetime) (requireVaid : Bool) :
    Returns (verifyA2aMessage message trustConfig revocation requestedAction now clock requireVaid) ↔
      PresentableMessage keys.binding (now.getD clock) message := by
  rw [verifyA2aMessage, loads, Raising.ok_bind]
  unfold PresentableMessage HoldsDicts
  cases inMessage : message.get "metadata" with
  | obj metadata =>
    simp only [Json.obj.injEq, exists_eq_left']
    cases leafValue : Dict.get metadata metadataVaidKey with
    | null => cases requireVaid <;> simp
    | obj leaf =>
      cases chainValue : presentedChain metadata with
      | none => simp
      | some chain =>
        have only (P : Dict → List Dict → Prop) :
            (∀ leaf' chain', (Json.obj leaf : PyValue) = .obj leaf' ∧ some chain = some chain' → P leaf' chain')
              ↔ P leaf chain :=
          ⟨fun h => h leaf chain ⟨rfl, rfl⟩, by rintro h _ _ ⟨⟨⟩, ⟨⟩⟩; exact h⟩
        simp only [only, verifyPresented_eq]
        exact returns_checkBearer (returns_verifyStanding revocation requestedAction)
    | _ => simp
  | _ =>
    have absent : Dict.get [] metadataVaidKey = .null := rfl
    simp only [absent]
    cases requireVaid <;> simp

namespace Adk

/-- How the verifier reports what stops it, under any resolver. -/
def reportBound (keys : DomainBinding) (leaf : Dict) : BoundFault → VerifyResult
  | .unknownKey => deny .issuerMismatch (py "no trusted kernel key for thumbprint " ++
      Libraries.repr (leaf.get "kernel_key_thumbprint"))
  | .leafMisbound boundDomain =>
    deny .issuerMismatch (trustedOnlyForReason (py "leaf") leaf boundDomain)
  | .leafAuthenticity verdict => deny (authenticityVerdictToCode verdict)
      (py ("leaf authenticity check failed: " ++ verdict.code))
  | .leafExpired => deny .expired (py "leaf VAID has passed its own expires_at")
  | .unknownScopeKind doc => deny .unknownScopeKind
      (py "document " ++ Libraries.repr (doc.get "vaid_id") ++
        py (" carries a scope_boundary entry " ++
          "of a kind this verifier does not recognise: refused rather than " ++
          "evaluated from the entries it could read, because an " ++
          "unrecognised kind can only narrow the authority granted"))
  | .misbound doc => deny .issuerMismatch (trustedOnlyForReason
      (py "document " ++ Libraries.repr (doc.get "vaid_id")) doc
      (keys.boundDomain (doc.get "kernel_key_thumbprint")))
  | .chain verdict => deny (chainVerdictToCode verdict)
      (py "chain verification did not attenuate: " ++ chainVerdictValue verdict)

/-- `verify_presentation`, under any resolver that `require_domain_binding` passes. -/
def verifyBoundPresentation (presentation : Option VaidPresentation) (keys : DomainBinding)
    (revocation : List PyStr → RevocationStatus)
    (requestedResource requestedCapability : Option PyStr) (now : Option UtcDatetime)
    (clock : UtcDatetime) : Raises VerifyResult :=
  match presentation with
  | none => .ok (deny .noVaid (py "no VAID presented"))
  | some presentation =>
    checkBound (reportBound keys presentation.leaf)
      (verifyStanding revocation requestedResource requestedCapability presentation.leaf) keys
      (now.getD clock) presentation.leaf presentation.chain

theorem verifyPresentation_eq (presentation : Option VaidPresentation) (keys : TrustedIssuerMap)
    (revocation : List PyStr → RevocationStatus)
    (requestedResource requestedCapability : Option PyStr) (now : Option UtcDatetime)
    (clock : UtcDatetime) :
    verifyPresentation presentation keys revocation requestedResource requestedCapability now clock =
      verifyBoundPresentation presentation keys.binding revocation requestedResource requestedCapability
        now clock := by
  cases presentation with
  | none => rfl
  | some presentation =>
    rw [verifyPresentation, verifyPresented_eq]
    exact checkBearer_eq_checkBound _ (fun fault => by cases fault <;> rfl) _ _ _ _ _

theorem returns_verifyStanding (revocation : List PyStr → RevocationStatus)
    (requestedResource requestedCapability : Option PyStr) {leaf : Dict} (bundle : PresentedBundle)
    (shape : HasShape leaf) (boundary : hasEvaluableBoundary leaf = true) :
    Returns (verifyStanding revocation requestedResource requestedCapability leaf bundle) := by
  unfold verifyStanding
  rw [Raising.returns_check_iff (Raising.returns_pure _), Raising.returns_unless_iff (Raising.returns_pure _),
    assembleLineage_eq shape, Raising.ok_bind]
  refine ⟨?_, fun _ _ => ?_⟩
  · cases requestedResource with
    | none => exact Raising.returns_pure _
    | some resource => exact returns_isInScope boundary resource
  · cases assembleLoop bundle.resolveParent maxLineageDepth [vaidIdOf leaf] (parentOf leaf) with
    | none => exact Raising.returns_pure _
    | some lineage =>
      dsimp only
      cases revocation lineage <;> exact Raising.returns_pure _

theorem returns_verifyBoundPresentation (presentation : Option VaidPresentation) (keys : DomainBinding)
    (revocation : List PyStr → RevocationStatus) (requestedResource requestedCapability : Option PyStr)
    (now : Option UtcDatetime) (clock : UtcDatetime) :
    Returns (verifyBoundPresentation presentation keys revocation requestedResource requestedCapability
      now clock) ↔ ∀ p ∈ presentation, Presentable keys (now.getD clock) p.leaf p.chain := by
  cases presentation with
  | none => simp [verifyBoundPresentation]
  | some presentation =>
    simp only [Option.mem_some_iff, forall_eq']
    exact returns_checkBound (returns_verifyStanding revocation requestedResource requestedCapability)

end Adk

/-- Both verifiers return a result exactly where the checks that they reach have what they need. -/
theorem verifiers_return_iff {trustConfig : Dict} {keys : TrustedIssuerMap}
    (loads : buildKeyResolver trustConfig = .ok keys) (revocation : List PyStr → RevocationStatus)
    (now : Option UtcDatetime) (clock : UtcDatetime) :
    (∀ (message : Dict) (requestedAction : Option PyStr) (requireVaid : Bool),
      (∃ result, verifyA2aMessage message trustConfig revocation requestedAction now clock requireVaid =
        .ok result) ↔ PresentableMessage keys.binding (now.getD clock) message) ∧
    ∀ (presentation : Option Adk.VaidPresentation) (resolver : DomainBinding)
      (requestedResource requestedCapability : Option PyStr),
      (∃ result, Adk.verifyBoundPresentation presentation resolver revocation requestedResource
        requestedCapability now clock = .ok result) ↔
        ∀ p ∈ presentation, Presentable resolver (now.getD clock) p.leaf p.chain :=
  ⟨fun message requestedAction requireVaid =>
      returns_verifyA2aMessage message loads revocation requestedAction now clock requireVaid,
    fun presentation resolver requestedResource requestedCapability =>
      Adk.returns_verifyBoundPresentation presentation resolver revocation requestedResource
        requestedCapability now clock⟩

end Bearers

section Example

section Pair

attribute [local instance] pairLibraries

theorem verifiers_return_pair :
    (∃ result, verifyA2aMessage pairMessage pairConfig (fun _ => .notRevoked) none (some pairInstant) 0
      true = .ok result) ∧
    PresentableMessage pairKeys.binding pairInstant pairMessage ∧
    ∃ result, Adk.verifyBoundPresentation (some ⟨pairChildDict, [pairRootDict]⟩) pairKeys.binding
      (fun _ => .notRevoked) none none (some pairInstant) 0 = .ok result := by
  obtain ⟨message, presentation⟩ :=
    verifiers_return_iff pair_valid.loads (fun _ => .notRevoked) (some pairInstant) 0
  obtain ⟨reason, verdict⟩ := verifyPresented_ok (fun _ => .notRevoked) none pairInstant pair_text
    (fun d member => Presented.timely_of_inYears (pair_inYears d member))
  have returned : ∃ result, verifyA2aMessage pairMessage pairConfig (fun _ => .notRevoked) none
      (some pairInstant) 0 true = .ok result :=
    ⟨_, (verifyA2aMessage_carries pair_valid.loads pair_carried (fun _ => .notRevoked) none
      (some pairInstant) 0 true).trans verdict⟩
  have presentable := (message pairMessage none true).mp returned
  refine ⟨returned, presentable, (presentation _ _ none none).mpr ?_⟩
  rintro p ⟨⟩
  exact presentable pairChildDict [pairRootDict] ⟨_, rfl, rfl, rfl⟩

end Pair

local instance namelessLibraries : Libraries := jwkLibraries

/-- A leaf without a `vaid_id`, under a trusted key and the domain it is bound to. -/
def nameless : Dict :=
  [(py "kernel_key_thumbprint", .str ((kernelKeyThumbprint (List.replicate 32 0)).toOption.getD [])),
    (py "trust_domain", .str (py "vaid.example"))]

def namelessMessage : Dict := [(py "metadata", .obj [(py metadataVaidKey, .obj nameless)])]

/-- The configuration loads, and neither verifier returns. -/
theorem verifiers_raise_nameless : ∃ keys,
    buildKeyResolver (kernelsConfig twoKernels) = .ok keys ∧
    (verifyA2aMessage namelessMessage (kernelsConfig twoKernels) (fun _ => .notRevoked) none (some 0) 0
      false).isOk = false ∧
    (Adk.verifyPresentation (some ⟨nameless, []⟩) keys (fun _ => .notRevoked) none none (some 0) 0).isOk =
      false := by
  have presented : (buildKeyResolver (kernelsConfig twoKernels) >>= fun keys =>
      Adk.verifyPresentation (some ⟨nameless, []⟩) keys (fun _ => .notRevoked) none none (some 0) 0).isOk =
      false := by decide +kernel
  have loads : (buildKeyResolver (kernelsConfig twoKernels)).isOk = true := by decide +kernel
  cases loaded : buildKeyResolver (kernelsConfig twoKernels) with
  | error e =>
    rw [loaded] at loads
    cases loads
  | ok keys =>
    rw [loaded, Raising.ok_bind] at presented
    exact ⟨keys, rfl, by decide +kernel, presented⟩

end Example

end VaidSuite.Python
