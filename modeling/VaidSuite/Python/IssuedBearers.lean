import VaidSuite.Python.MintRuns
import VaidSuite.Python.Plugin

/-! What the bearers of a chain say of the documents that one mint has issued. -/
namespace VaidSuite.Python

open Guards (firstRefusal)

section Bearers

variable [Libraries]

/-- What stops a bearer of an issued line, when the leaf lives. -/
def lineFault (documents : List Dict) (ancestors : List Presented) : Option Fault :=
  match documents.find? (fun doc => !hasEvaluableBoundary doc) with
  | some doc => some (.unknownScopeKind doc)
  | none => if maxLineageDepth ≤ ancestors.length then some (.chain .unverifiable) else none

section Line

variable [PrivateKeys] {L R : Type} {issuer : ReferenceIssuer L R} {maxDepth : Nat}
  {issued : List Dict} {v : Presented} {ancestors documents : List Presented}

omit [PrivateKeys] in
theorem Presented.Delegated.unexpired {ancestor v : Presented} (h : Presented.Delegated ancestor v)
    {now : UtcDatetime} (alive : v.isExpired now = false) : ancestor.isExpired now = false := by
  obtain ⟨upper, lower, ha, hv, order⟩ := h.expiresAt
  simp only [Presented.isExpired, hv, Option.all_some, decide_eq_false_iff_not, not_lt] at alive
  simp only [Presented.isExpired, ha, Option.all_some, decide_eq_false_iff_not, not_lt]
  exact alive.trans order

theorem Descent.delegated (h : Descent issuer maxDepth issued v ancestors) :
    ∀ a ∈ ancestors, Presented.Delegated a v :=
  (List.pairwise_cons.mp (Presented.pairwise_delegated h.hops)).1

theorem Descent.head_unexpired (h : Descent issuer maxDepth issued v ancestors) {now : UtcDatetime}
    (alive : isExpiredAt v.dict now = .ok false) :
    ancestors.head?.any (fun a => a.isExpired now) = false := by
  cases ancestors with
  | nil => rfl
  | cons parent above =>
    exact (h.delegated parent List.mem_cons_self).unexpired (v.of_isExpiredAt alive).2

/-- The keys bind the issuer's kernel key to its trust domain. -/
def Binds (keys : TrustedIssuerMap) (issuer : ReferenceIssuer L R) : Prop :=
  ∀ t, kernelKeyThumbprint issuer.kernelPublicKey = .ok t →
    keys.lookup t = some ⟨issuer.kernelPublicKey, issuer.trustDomain.val⟩

theorem ReferenceIssuer.Minted.isBoundElsewhere {keys : TrustedIssuerMap} (binds : Binds keys issuer)
    {d : Presented} (minted : issuer.Minted d) : d.isBoundElsewhere keys = false := by
  rw [Presented.isBoundElsewhere, binds _ minted.thumbprint, Option.any_some, bne_eq_false_iff_eq]
  exact minted.trustDomain.symm

/-- A bearer that trusts the issuer stops at the leaf's expiry, at a boundary it cannot read, or at
a line that is too long. -/
theorem Descent.checkBearer (h : Descent issuer maxDepth issued v ancestors)
    (distinct : (issued.map vaidIdOf).Nodup) (listed : ∀ d ∈ documents, d.dict ∈ issued)
    (minted : ∀ d ∈ documents, issuer.Minted d) (presented : ∀ a ∈ ancestors, a ∈ documents)
    {keys : TrustedIssuerMap} (binds : Binds keys issuer) (now : UtcDatetime) {T : Type}
    (report : Fault → T) (goOn : PresentedBundle → Raises T) :
    Python.checkBearer report goOn keys now v.dict (documents.map Presented.dict) =
      isExpiredAt v.dict now >>= fun expired =>
        if expired then .ok (report .leafExpired)
        else (lineFault (v.dict :: documents.map Presented.dict) ancestors).elim
          (goOn (bundleOf documents)) (fun fault => .ok (report fault)) := by
  have leaf := h.minted v List.mem_cons_self
  have text : Encodable v.trustDomain := by
    rw [leaf.trustDomain]
    exact (of_isValidTrustDomain issuer.trustDomain.property).1
  have bindings : (documents.map Presented.dict).find? (isMisbound keys) = none := by
    refine List.find?_eq_none.mpr (fun doc member => ?_)
    obtain ⟨d, inside, rfl⟩ := List.mem_map.mp member
    rw [d.isMisbound_eq, (minted d inside).isBoundElsewhere binds]
    exact Bool.false_ne_true
  have trusts : ∀ t, kernelKeyThumbprint issuer.kernelPublicKey = .ok t →
      keys.resolveKey (.str t) = .ok (some issuer.kernelPublicKey) := by
    intro t named
    rw [resolveKey_str, TrustedIssuerMap.trust, binds t named]
    rfl
  have verdict := h.verifyChainAt distinct listed minted presented trusts now
  unfold Python.checkBearer checkDocuments lineFault
  simp only [v.get_thumbprint, v.get_trustDomain, Json.asStr, Option.bind_some,
    binds _ leaf.thumbprint, pyEq_str, leaf.trustDomain, beq_self_eq_true, Bool.not_true,
    Bool.false_eq_true, if_false, v.verifyVaidAuthenticityGraded_ok _ text, leaf.authentic,
    Raising.ok_bind, ne_eq, not_true_eq_false, bindings, PresentedBundle.new_ok, verdict]
  cases alive : isExpiredAt v.dict now with
  | error e => rfl
  | ok expired =>
    cases expired with
    | true => rfl
    | false =>
      simp only [Raising.ok_bind, Bool.false_eq_true, if_false, lineVerdict, h.head_unexpired alive]
      cases (v.dict :: documents.map Presented.dict).find? (fun doc => !hasEvaluableBoundary doc) with
      | some doc => rfl
      | none =>
        by_cases long : maxLineageDepth ≤ ancestors.length
        · simp only [long, if_true]
          rfl
        · simp only [long, if_false]
          rfl

theorem Descent.lineageStanding (h : Descent issuer maxDepth issued v ancestors)
    (distinct : (issued.map vaidIdOf).Nodup) (listed : ∀ d ∈ documents, d.dict ∈ issued)
    (presented : ∀ a ∈ ancestors, a ∈ documents) (short : ancestors.length < maxLineageDepth)
    (revocation : List PyStr → RevocationStatus) :
    lineageStanding revocation v documents =
      revocation ((v :: ancestors).reverse.map Presented.vaidId) := by
  have named : (presentation v documents).names maxLineageDepth =
      some ((v :: ancestors).reverse.map Presented.vaidId) :=
    (Presentation.names_eq_some_iff _ (by decide) _).mpr
      ⟨ancestors, h.isLineage distinct listed presented short, rfl⟩
  rw [Python.lineageStanding, named, Option.elim_some]

end Line

namespace Adk

/-- A result whose code decides whether it allows. -/
def resultOf (code : VerifyCode) (reason : PyStr) : VerifyResult := ⟨code == .allowed, code, reason⟩

def standingRefusal : RevocationStatus → VerifyCode
  | .revoked => .revoked
  | _ => .indeterminate

def requestSteps (resource capability : Option PyStr) (leaf : Presented) (standing : RevocationStatus) :
    List (Bool × VerifyCode) :=
  [(resource.all leaf.inScope, .outOfScope),
    (capability.all (fun c => leaf.capabilitySet.contains c), .missingCapability),
    (standing == .notRevoked, standingRefusal standing)]

theorem hasCapability_eq (leaf : Presented) (capability : PyStr) :
    hasCapability leaf.dict capability = leaf.capabilitySet.contains capability := by
  simp only [hasCapability, leaf.get_capabilitySet, List.any_map, List.contains_eq_any_beq]
  exact congrArg (List.any _) (funext fun c => pyEq_str capability c)

theorem verifyStanding_none (revocation : List PyStr → RevocationStatus) (capability : Option PyStr)
    (leaf : Presented) (chain : List Presented) : ∃ reason,
      verifyStanding revocation none capability leaf.dict (bundleOf chain) =
        .ok (resultOf (firstRefusal .allowed (requestSteps none capability leaf
          (lineageStanding revocation leaf chain))) reason) := by
  have held : hasCapability leaf.dict = fun c => leaf.capabilitySet.contains c :=
    funext (hasCapability_eq leaf)
  unfold verifyStanding requestSteps lineageStanding
  simp only [held, assembleLineage_ok, Raising.ok_bind, pure_bind, Option.all_none]
  cases capability.all (fun c => leaf.capabilitySet.contains c) with
  | false => exact ⟨_, rfl⟩
  | true =>
    cases (presentation leaf chain).names maxLineageDepth with
    | none => exact ⟨_, rfl⟩
    | some ids =>
      simp only [Option.elim_some, Bool.not_true, Bool.false_eq_true, if_false]
      cases revocation ids <;> exact ⟨_, rfl⟩

theorem verifyStanding_of_inScope (revocation : List PyStr → RevocationStatus)
    (capability : Option PyStr) {leaf : Presented} {resource : PyStr}
    (held : leaf.inScope resource = true) (bundle : PresentedBundle) :
    verifyStanding revocation (some resource) capability leaf.dict bundle =
      verifyStanding revocation none capability leaf.dict bundle := by
  unfold verifyStanding
  simp only [leaf.isInScope_ok, held]
  rfl

theorem verifyStanding_decides (revocation : List PyStr → RevocationStatus)
    (resource capability : Option PyStr) (leaf : Presented) (chain : List Presented) : ∃ reason,
      verifyStanding revocation resource capability leaf.dict (bundleOf chain) =
        .ok (resultOf (firstRefusal .allowed (requestSteps resource capability leaf
          (lineageStanding revocation leaf chain))) reason) := by
  cases resource with
  | none => exact verifyStanding_none revocation capability leaf chain
  | some resource =>
    cases held : leaf.inScope resource with
    | true =>
      obtain ⟨reason, stands⟩ := verifyStanding_none revocation capability leaf chain
      refine ⟨reason, (verifyStanding_of_inScope revocation capability held _).trans ?_⟩
      rw [stands, requestSteps, requestSteps, Option.all_some, held]
      rfl
    | false =>
      unfold verifyStanding requestSteps
      simp only [leaf.isInScope_ok, held, Raising.ok_bind, Option.all_some]
      exact ⟨_, rfl⟩

/-- The answer on an issued line, the leaf of which has `expired`. -/
def lineCode (revocation : List PyStr → RevocationStatus) (resource capability : Option PyStr)
    (leaf : Presented) (ancestors : List Presented) (documents : List Dict) (expired : Bool) :
    VerifyCode :=
  firstRefusal .allowed
    ([(!expired, .expired),
      ((leaf.dict :: documents).all hasEvaluableBoundary, .unknownScopeKind),
      (decide (ancestors.length < maxLineageDepth), .unverifiable)] ++
    requestSteps resource capability leaf (revocation ((leaf :: ancestors).reverse.map Presented.vaidId)))

theorem lineCode_eq_allowed_iff {revocation : List PyStr → RevocationStatus}
    {resource capability : Option PyStr} {leaf : Presented} {ancestors : List Presented}
    {documents : List Dict} {expired : Bool} :
    lineCode revocation resource capability leaf ancestors documents expired = .allowed ↔
      expired = false ∧ (∀ doc ∈ leaf.dict :: documents, hasEvaluableBoundary doc = true) ∧
      ancestors.length < maxLineageDepth ∧ (∀ r ∈ resource, leaf.inScope r = true) ∧
      (∀ c ∈ capability, c ∈ leaf.capabilitySet) ∧
      revocation ((leaf :: ancestors).reverse.map Presented.vaidId) = .notRevoked := by
  rw [lineCode, Guards.firstRefusal_eq_accepted_iff]
  · simp [requestSteps, Option.all_eq_true]
  · intro step member
    simp only [requestSteps, List.cons_append, List.nil_append, List.mem_cons, List.not_mem_nil,
      or_false] at member
    rcases member with rfl | rfl | rfl | rfl | rfl | rfl
    all_goals try (intro same; cases same)
    cases revocation ((leaf :: ancestors).reverse.map Presented.vaidId) <;> simp [standingRefusal]

omit [Libraries] in
theorem all_hasEvaluableBoundary (documents : List Dict) : documents.all hasEvaluableBoundary =
    (documents.find? (fun doc => !hasEvaluableBoundary doc)).isNone := by
  rw [Bool.eq_iff_iff, List.all_eq_true, Option.isNone_iff_eq_none, List.find?_eq_none]
  simp

section Plugin

variable [PrivateKeys] {L R : Type} {issuer : ReferenceIssuer L R} {maxDepth : Nat}
  {issued : List Dict} {v : Presented} {ancestors documents : List Presented}

theorem verifyPresented_line (h : Descent issuer maxDepth issued v ancestors)
    (distinct : (issued.map vaidIdOf).Nodup) (listed : ∀ d ∈ documents, d.dict ∈ issued)
    (minted : ∀ d ∈ documents, issuer.Minted d) (presented : ∀ a ∈ ancestors, a ∈ documents)
    {keys : TrustedIssuerMap} (binds : Binds keys issuer) (revocation : List PyStr → RevocationStatus)
    (resource capability : Option PyStr) (now : UtcDatetime) : ∃ reason : Bool → PyStr,
      verifyPresented keys revocation resource capability now v.dict (documents.map Presented.dict) =
        (isExpiredAt v.dict now).map (fun expired => resultOf
          (lineCode revocation resource capability v ancestors (documents.map Presented.dict) expired)
          (reason expired)) := by
  rw [verifyPresented_eq, h.checkBearer distinct listed minted presented binds]
  obtain ⟨stood, stands⟩ := verifyStanding_decides revocation resource capability v documents
  have answers : ∀ expired, ∃ reason,
      (if expired then .ok (report keys v.dict .leafExpired)
        else (lineFault (v.dict :: documents.map Presented.dict) ancestors).elim
          (verifyStanding revocation resource capability v.dict (bundleOf documents))
          (fun fault => .ok (report keys v.dict fault)) : Raises VerifyResult) =
        .ok (resultOf (lineCode revocation resource capability v ancestors
          (documents.map Presented.dict) expired) reason) := by
    intro expired
    cases expired with
    | true => exact ⟨_, rfl⟩
    | false =>
      rw [lineFault, lineCode, all_hasEvaluableBoundary]
      cases (v.dict :: documents.map Presented.dict).find? (fun doc => !hasEvaluableBoundary doc) with
      | some doc => exact ⟨_, rfl⟩
      | none =>
        by_cases long : maxLineageDepth ≤ ancestors.length
        · rw [if_pos long, decide_eq_false (Nat.not_lt.mpr long)]
          exact ⟨_, rfl⟩
        · have short := Nat.lt_of_not_le long
          rw [if_neg long, decide_eq_true short, stands,
            h.lineageStanding distinct listed presented short]
          exact ⟨_, rfl⟩
  choose reason answered using answers
  refine ⟨reason, ?_⟩
  cases isExpiredAt v.dict now with
  | error e => rfl
  | ok expired => exact answered expired

end Plugin

/-- The `code` of a denial, if the call was denied. -/
def denialOf (code : VerifyCode) : Option PyValue :=
  if code = .allowed then none else some (.str (py code.value))

omit [Libraries] in
theorem of_denialOf {code : Bool → VerifyCode} {read : Raises Bool}
    (passed : read.map (fun expired => denialOf (code expired)) = .ok none) :
    ∃ expired, read = .ok expired ∧ code expired = .allowed := by
  cases read with
  | error e => cases passed
  | ok expired =>
    refine ⟨expired, rfl, ?_⟩
    by_contra denied
    have same : denialOf (code expired) = none := Except.ok.inj passed
    rw [denialOf, if_neg denied] at same
    cases same

theorem VaidAuthPlugin.beforeToolCallback_code {plugin : VaidAuthPlugin} {clock : UtcDatetime}
    {toolName agentName : PyStr} {authz : ToolAuthorization}
    (mapped : plugin.toolAuthorizations.lookup toolName = some authz) {code : Bool → VerifyCode}
    {reason : Bool → PyStr} {read : Raises Bool}
    (verified : plugin.verifyFor clock agentName authz.resource (some authz.capability) =
      read.map (fun expired => resultOf (code expired) (reason expired))) :
    (plugin.beforeToolCallback clock toolName agentName).map (Option.map (fun d => d.get "code")) =
      read.map (fun expired => denialOf (code expired)) := by
  rw [beforeToolCallback, mapped]
  dsimp only
  rw [verified]
  cases read with
  | error e => rfl
  | ok expired =>
    simp only [Except.map, Raising.ok_bind, resultOf, beq_iff_eq, denialOf]
    by_cases allowed : code expired = .allowed
    · rw [if_pos allowed, if_pos allowed]
      rfl
    · rw [if_neg allowed, if_neg allowed]
      rfl

theorem VaidAuthPlugin.beforeAgentCallback_isNone {plugin : VaidAuthPlugin} {clock : UtcDatetime}
    {agentName : PyStr} {code : Bool → VerifyCode} {reason : Bool → PyStr} {read : Raises Bool}
    (verified : plugin.verifyFor clock agentName none none =
      read.map (fun expired => resultOf (code expired) (reason expired))) :
    (plugin.beforeAgentCallback clock agentName).map Option.isNone =
      read.map (fun expired => code expired == .allowed) := by
  rw [beforeAgentCallback, verified]
  cases read with
  | error e => rfl
  | ok expired =>
    simp only [Except.map, Raising.ok_bind, resultOf]
    cases code expired == .allowed <;> rfl

end Adk

open Python.MintRuns in
/-- The plugin on an agent with an issued presentation. A call that it lets through is within the
authority of the whole line. -/
theorem issued_tool_call {A : Type} [PrivateKeys] [AuditSink A] (first : Service A)
    (kernel : SigningKey first.issuer.kernelKey) (ops : List Op)
    (proper : Runs.Along step Proper (start first) ops) :
    let s := Runs.run step (start first) ops
    ∀ d ∈ s.issued, ∃ v ancestors, v.dict = d ∧
      Descent first.issuer first.maxDelegationDepth.val s.issued v ancestors ∧
      ∀ documents ⊆ s.issued, (∀ a ∈ ancestors, a.dict ∈ documents) →
        ∀ (plugin : Adk.VaidAuthPlugin) (agentName : PyStr), Binds plugin.keys first.issuer →
          plugin.presentations.lookup agentName = some ⟨d, documents⟩ → ∀ clock,
            (plugin.beforeAgentCallback clock agentName).map Option.isNone =
              (isExpiredAt d clock).map (fun expired => Adk.lineCode plugin.revocation none none v
                ancestors documents expired == .allowed) ∧
            ∀ toolName authz, plugin.toolAuthorizations.lookup toolName = some authz →
              (plugin.beforeToolCallback clock toolName agentName).map
                  (Option.map (fun denial => denial.get "code")) =
                (isExpiredAt d clock).map (fun expired => Adk.denialOf (Adk.lineCode
                  plugin.revocation authz.resource (some authz.capability) v ancestors documents
                  expired)) ∧
              (plugin.beforeToolCallback clock toolName agentName = .ok none →
                (∀ a ∈ v :: ancestors, a.isExpired clock = false ∧ authz.capability ∈ a.capabilitySet ∧
                  ∀ r ∈ authz.resource, a.inScope r = true) ∧
                (plugin.revocation = s.service.issuer.revocation.checkLineage →
                  ∀ a ∈ v :: ancestors, Op.revoke a.vaidId ∉ ops)) := by
  intro s d member
  have inv : Inv first s := Inv.run kernel proper
  obtain ⟨v, ancestors, rfl, line⟩ := inv.descended d member
  refine ⟨v, ancestors, rfl, line, ?_⟩
  intro documents listed presented plugin agentName binds registered clock
  obtain ⟨docs, rfl, minted⟩ := inv.lift listed
  have above : ∀ a ∈ ancestors, a ∈ docs := by
    intro a member
    obtain ⟨b, among, same⟩ := List.mem_map.mp (presented a member)
    exact Presented.ext same ▸ among
  have verified : ∀ resource capability, ∃ reason : Bool → PyStr,
      plugin.verifyFor clock agentName resource capability =
        (isExpiredAt v.dict clock).map (fun expired => Adk.resultOf
          (Adk.lineCode plugin.revocation resource capability v ancestors (docs.map Presented.dict) expired)
          (reason expired)) := by
    intro resource capability
    rw [Adk.VaidAuthPlugin.verifyFor, registered]
    exact Adk.verifyPresented_line line inv.distinct
      (fun e among => listed (List.mem_map_of_mem among)) minted above binds plugin.revocation
      resource capability clock
  constructor
  · obtain ⟨reason, agent⟩ := verified none none
    exact Adk.VaidAuthPlugin.beforeAgentCallback_isNone agent
  · intro toolName authz mapped
    obtain ⟨reason, tool⟩ := verified authz.resource (some authz.capability)
    have code := Adk.VaidAuthPlugin.beforeToolCallback_code mapped tool
    refine ⟨code, fun passed => ?_⟩
    rw [passed] at code
    obtain ⟨expired, read, allowed⟩ := Adk.of_denialOf code.symm
    obtain ⟨rfl, -, -, inScope, held, vouched⟩ := Adk.lineCode_eq_allowed_iff.mp allowed
    have alive := (v.of_isExpiredAt read).2
    constructor
    · refine List.forall_mem_cons.mpr ⟨⟨alive, held _ rfl, inScope⟩, ?_⟩
      intro a member
      have delegated := line.delegated a member
      exact ⟨delegated.unexpired alive, delegated.capabilities (held _ rfl),
        fun r requested => delegated.inScope (inScope r requested)⟩
    · intro own a member
      rw [own] at vouched
      exact not_revoked vouched a.vaidId
        (List.mem_map_of_mem (List.mem_reverse.mpr member))

end Bearers

namespace MintRuns.Example

attribute [local instance] lineLibraries linePrivateKeys

def lineIssuers : TrustedIssuerMap :=
  [(thumbprintUriPrefix ++ py "qw", ⟨lineService.issuer.kernelPublicKey, lineService.issuer.trustDomain.val⟩)]

theorem lineBinds : Binds lineIssuers lineService.issuer := by
  intro t named
  have same : thumbprintUriPrefix ++ py "qw" = t := Except.ok.inj named
  rw [lineIssuers, List.lookup_cons, same, beq_self_eq_true]

def linePlugin (revocation : List PyStr → RevocationStatus) (presentation : Adk.VaidPresentation) :
    Adk.VaidAuthPlugin :=
  (Adk.VaidAuthPlugin.new lineIssuers revocation [(py "lookup", ⟨py "read", none⟩)]).register
    (py "agent") presentation

/-- A tool call of an agent that presents an issued document, with everything issued. -/
def lineCall (s : State InMemoryAudit) (d : Dict) : Raises (Option Dict) :=
  (linePlugin s.service.issuer.revocation.checkLineage ⟨d, s.issued⟩).beforeToolCallback
    (lineEnv 1).popNow (py "lookup") (py "agent")

theorem lineCall_passes : ∀ d ∈ (Runs.run step (start lineService) [mintsRoot, mintsChild]).issued,
    (lineCall (Runs.run step (start lineService) [mintsRoot, mintsChild]) d).toOption.map
      Option.isNone = some true := by
  decide +kernel

theorem issued_tool_call_child :
    let s := Runs.run step (start lineService) [mintsRoot, mintsChild]
    s.issued.map (fun d => (parentOf d).isSome) = [false, true] ∧
      ∀ d ∈ s.issued, lineCall s d = .ok none ∧ ∃ (v : Presented) (ancestors : List Presented), v.dict = d ∧
        (∀ a ∈ v :: ancestors, py "read" ∈ a.capabilitySet) ∧
        ∀ a ∈ v :: ancestors, Op.revoke a.vaidId ∉ [mintsRoot, mintsChild] := by
  have calls := issued_tool_call lineService lineKey [mintsRoot, mintsChild] lineProper
  have passes := lineCall_passes
  have issued := line_issued
  generalize Runs.run step (start lineService) [mintsRoot, mintsChild] = s at calls passes issued ⊢
  refine ⟨issued, fun d member => ?_⟩
  obtain ⟨v, ancestors, rfl, line, call⟩ := calls d member
  have passed : lineCall s v.dict = .ok none := by
    have returned := passes v.dict member
    cases answer : lineCall s v.dict with
    | error e =>
      rw [answer] at returned
      cases returned
    | ok denial =>
      rw [answer] at returned
      exact congrArg Except.ok (Option.isNone_iff_eq_none.mp (Option.some.inj returned))
  obtain ⟨within, kept⟩ := ((call s.issued (List.Subset.refl _)
    (fun a above => line.issued a (List.mem_cons_of_mem _ above)) (linePlugin _ _) (py "agent") lineBinds
    rfl _).2 (py "lookup") _ rfl).2 passed
  exact ⟨passed, v, ancestors, rfl, fun a above => (within a above).2.1, kept rfl⟩

end MintRuns.Example

end VaidSuite.Python
