import VaidSuite.TypeScript.ChainSpec

/-! Documents that satisfy the structural contract, with the values of their members.
On these the verification functions throw nothing and compute the total functions here. -/
namespace VaidSuite.TypeScript

open Guards (firstRefusal)

theorem prefixContains_eq : prefixContains = Containment.segmentPrefix scopeSeparators := rfl

theorem entryContains_eq (entry : JsValue) (resource : JsStr) :
    entryContains entry resource =
      (entryClaimedResource entry).map (fun p => prefixContains p resource) := by
  unfold entryContains entryClaimedResource
  cases entry with
  | obj members =>
    dsimp only
    split
    · cases Members.get members "value" <;> rfl
    · rfl
  | _ => rfl

/-- The prefixes that a boundary names, when every entry can be read. -/
def claimedResources (boundary : List JsValue) : Option (List JsStr) :=
  Containment.regions entryClaimedResource boundary

theorem boundaryIsEvaluable_arr (boundary : List JsValue) :
    boundaryIsEvaluable (.arr boundary) = .ok (claimedResources boundary).isSome := by
  have reads : entryIsEvaluable = fun e => (entryClaimedResource e).isSome := by
    funext e
    simp [entryIsEvaluable, entryContains_eq]
  rw [boundaryIsEvaluable, reads]
  exact congrArg Except.ok (Containment.regions_isSome boundary).symm

theorem scopeContains_eq (boundary : List JsValue) (resource : JsStr) :
    scopeContains boundary resource = match claimedResources boundary with
      | none => false
      | some ps => Containment.within prefixContains ps resource := by
  have scanned : Containment.scan (fun entry => entryContains entry resource) boundary false =
      (claimedResources boundary).map (fun ps => ps.any (fun p => prefixContains p resource)) :=
    Containment.scan_eq (fun e => entryContains_eq e resource) boundary false
  rw [scopeContains, scanned]
  cases h : claimedResources boundary with
  | none => rfl
  | some ps => simp [Containment.within, Containment.regions_isEmpty h]

theorem scopeAttenuationReason_arr (parentScope childScope : List JsValue) :
    scopeAttenuationReason (.arr parentScope) (.arr childScope) =
      .ok (reasonOf prefixContains (claimedResources parentScope) (claimedResources childScope)) := by
  simp only [scopeAttenuationReason, boundaryIsEvaluable_arr, arrayItems, Raising.ok_bind]
  cases hp : claimedResources parentScope with
  | none => rfl
  | some ps =>
    cases hc : claimedResources childScope with
    | none => rfl
    | some cs =>
      have contains : scopeContains parentScope = Containment.within prefixContains ps := by
        funext r
        rw [scopeContains_eq, hp]
      exact congrArg (fun b : Bool => Except.ok (if b = true then AttenuationReason.attenuated
        else .scopeEscalation)) (Containment.claims_attenuate hp hc contains)

/-- Scope attenuation of two arrays of entries is attenuation of the prefix unions, and
refuses a boundary that cannot be read on either side. -/
theorem scopeAttenuatesWithin_arr (parentScope childScope : List JsValue) :
    scopeAttenuatesWithin (.arr parentScope) (.arr childScope) =
      .ok (match claimedResources parentScope, claimedResources childScope with
        | some ps, some cs => Containment.attenuates prefixContains ps cs
        | _, _ => false) := by
  rw [scopeAttenuatesWithin, scopeAttenuationReason_arr, Raising.ok_bind]
  cases claimedResources parentScope with
  | none => rfl
  | some ps =>
    cases claimedResources childScope with
    | none => rfl
    | some cs => exact congrArg Except.ok (reasonOf_some prefixContains ps cs)

/-- An object that satisfies the structural contract. -/
structure Presented where
  members : Members
  contract : satisfiesContract members = true

namespace Presented

variable (d : Presented)

/-- A member that holds a string. -/
def text (key : String) : JsStr := (d.members.get key).asStr.getD []

def agentId : JsStr := d.text "agent_id"
def tenantId : JsStr := d.text "tenant_id"
def trustDomain : JsStr := d.text "trust_domain"
def thumbprint : JsStr := d.text "kernel_key_thumbprint"

/-- A member that holds an array. -/
def items (key : String) : List JsValue :=
  match d.members.get key with
  | .arr items => items
  | _ => []

def scopeBoundary : List JsValue := d.items "scope_boundary"
def capabilitySet : List JsStr := (d.items "capability_set").filterMap JsValue.asStr

/-- The prefixes of the boundary, when every entry can be read. -/
def claimed : Option (List JsStr) := claimedResources d.scopeBoundary

theorem required {key : String} {isWellTyped : JsValue → Bool}
    (listed : (key, isWellTyped) ∈ requiredMembers) :
    isWellTyped (d.members.get key) = true := by
  have contract := d.contract
  simp only [satisfiesContract, Bool.and_eq_true] at contract
  obtain ⟨v, found, typed⟩ := (Option.any_eq_true _ _).mp (List.all_eq_true.mp contract.1.1 _ listed)
  rwa [Members.get, found]

theorem str_of_asStr {v : JsValue} (some_ : v.asStr.isSome = true) : v = .str (v.asStr.getD []) := by
  cases v with
  | str s => rfl
  | _ => cases some_

theorem get_str {key : String} (listed : (key, isString) ∈ requiredMembers) :
    d.members.get key = .str (d.text key) :=
  str_of_asStr (d.required listed)

theorem get_uuid {key : String} (listed : (key, isUuid) ∈ requiredMembers) :
    d.members.get key = .str (d.text key) ∧ isUuidText (d.text key) = true := by
  obtain ⟨s, some_, reads⟩ := (Option.any_eq_true _ _).mp (d.required listed)
  have value : d.members.get key = .str (d.text key) :=
    str_of_asStr (Option.isSome_iff_exists.mpr ⟨s, some_⟩)
  have same : d.text key = s := by rw [text, some_]; rfl
  exact ⟨value, same ▸ reads⟩

theorem get_vaidId : d.members.get "vaid_id" = .str (d.text "vaid_id") :=
  (d.get_uuid (by simp [requiredMembers])).1

theorem get_thumbprint : d.members.get "kernel_key_thumbprint" = .str d.thumbprint :=
  d.get_str (by simp [requiredMembers])

theorem get_scopeBoundary : d.members.get "scope_boundary" = .arr d.scopeBoundary := by
  have typed := d.required (show ("scope_boundary", isWellFormedScopeBoundary) ∈ requiredMembers by
    simp [requiredMembers])
  unfold scopeBoundary items
  cases h : d.members.get "scope_boundary" with
  | arr boundary => rfl
  | _ =>
    rw [h] at typed
    cases typed

theorem get_capabilitySet :
    d.members.get "capability_set" = .arr (d.capabilitySet.map .str) := by
  have typed := d.required (show ("capability_set", isStringList) ∈ requiredMembers by
    simp [requiredMembers])
  unfold capabilitySet items
  cases h : d.members.get "capability_set" with
  | arr capabilities =>
    rw [h] at typed
    have strs : ∀ v ∈ capabilities, isString v = true := List.all_eq_true.mp typed
    have back : (capabilities.filterMap JsValue.asStr).map JsValue.str = capabilities := by
      clear h typed
      induction capabilities with
      | nil => rfl
      | cons v capabilities ih =>
        have rest := ih (fun w hw => strs w (List.mem_cons_of_mem _ hw))
        obtain ⟨s, rfl⟩ : ∃ s, v = .str s := ⟨_, str_of_asStr (strs v List.mem_cons_self)⟩
        rw [List.filterMap_cons_some (show JsValue.asStr (.str s) = some s from rfl), List.map_cons,
          rest]
    exact congrArg JsValue.arr back.symm
  | _ =>
    rw [h] at typed
    cases typed

theorem hasShape : hasShape d.members = true := by
  obtain ⟨value, reads⟩ := d.get_uuid (show ("vaid_id", isUuid) ∈ requiredMembers by
    simp [requiredMembers])
  have contract := d.contract
  simp only [satisfiesContract, Bool.and_eq_true] at contract
  have parent := contract.2
  unfold parentIsUuid at parent
  unfold TypeScript.hasShape
  rw [value]
  cases h : d.text "vaid_id" with
  | nil =>
    rw [h] at reads
    cases reads
  | cons c s =>
    cases hp : d.members.get "parent_vaid" <;> rw [hp] at parent <;> first | rfl | cases parent

variable [Runtime]

def expiresAt : Option Int := parseRfc3339 (d.members.get "expires_at")

def isExpired (now : Int) : Bool := TypeScript.isExpired d.members now

/-- The lineage hash recomputes from the document's own parent and agent. -/
def lineageHolds : Bool :=
  decide (computeLineageHash ((d.members.get "parent_vaid").orElse .null) d.agentId =
    .ok (d.text "lineage_hash"))

/-- The authenticity checks under a key whose thumbprint is known, in their order. -/
def authenticitySteps (key : Bytes) (own : JsStr) : List (Bool × VaidVerdict) :=
  [((d.members.get "sig_version").strictEq (.ofNat vaidSigVersionV4), .unsupportedSigVersion),
    (!d.trustDomain.isEmpty && isTrustDomain d.trustDomain, .malformedTrustDomain),
    (d.thumbprint == own, .issuerMismatch),
    (d.lineageHolds, .lineageInconsistent),
    (decide (verifyKernelSignature key d.members = .ok true), .inauthentic)]

def authenticity (key : Bytes) (own : JsStr) : VaidVerdict :=
  firstRefusal .valid (d.authenticitySteps key own)

theorem verifyLineageHash_ok : verifyLineageHash d.members = .ok d.lineageHolds := by
  have agent : d.members.get "agent_id" = .str d.agentId :=
    (d.get_uuid (by simp [requiredMembers])).1
  have claimed : d.members.get "lineage_hash" = .str (d.text "lineage_hash") :=
    d.get_str (by simp [requiredMembers])
  have parent : (d.members.get "parent_vaid").orElse .null = .null ∨
      ∃ s, (d.members.get "parent_vaid").orElse .null = .str s := by
    have contract := d.contract
    simp only [satisfiesContract, Bool.and_eq_true] at contract
    have typed := contract.2
    unfold parentIsUuid at typed
    cases h : d.members.get "parent_vaid" with
    | null => exact .inl rfl
    | undefined => exact .inl rfl
    | str s => exact .inr ⟨s, rfl⟩
    | _ =>
      rw [h] at typed
      cases typed
  have computes : ∃ h, computeLineageHash ((d.members.get "parent_vaid").orElse .null) d.agentId =
      .ok h := by
    rcases parent with none_ | ⟨s, some_⟩
    · rw [none_]
      exact ⟨_, rfl⟩
    · rw [some_]
      exact ⟨_, rfl⟩
  obtain ⟨h, computed⟩ := computes
  rw [verifyLineageHash, lineageHolds, agent, claimed]
  simp only [computed, Raising.ok_bind, JsValue.strictEq_str, Except.ok.injEq, beq_eq_decide]
  rfl

theorem verifyVaidAuthenticityGraded_ok {key : Bytes} {own : JsStr}
    (thumbprint : kernelKeyThumbprint key = .ok own) :
    verifyVaidAuthenticityGraded key (.obj d.members) = .ok (d.authenticity key own) := by
  have domain : isValidTrustDomain (d.members.get "trust_domain") =
      (!d.trustDomain.isEmpty && isTrustDomain d.trustDomain) := by
    rw [d.get_str (show ("trust_domain", isString) ∈ requiredMembers by simp [requiredMembers])]
    rfl
  unfold verifyVaidAuthenticityGraded authenticity authenticitySteps
  simp only [requireVaidShape_ok d.hasShape, domain, thumbprint, d.verifyLineageHash_ok,
    d.get_thumbprint, JsValue.strictEq_str, Raising.ok_bind, firstRefusal]
  cases (d.members.get "sig_version").strictEq (.ofNat vaidSigVersionV4) with
  | false => rfl
  | true =>
    cases (!d.trustDomain.isEmpty && isTrustDomain d.trustDomain) with
    | false => rfl
    | true =>
      cases d.thumbprint == own with
      | false => rfl
      | true =>
        cases d.lineageHolds with
        | false => rfl
        | true =>
          rcases h : verifyKernelSignature key d.members with e | verified
          · rfl
          · cases verified <;> rfl

def scopeWithin (parent child : Presented) : Bool :=
  match parent.claimed, child.claimed with
  | some ps, some cs => Containment.attenuates prefixContains ps cs
  | _, _ => false

def capsWithin (parent child : Presented) : Bool :=
  child.capabilitySet.all (fun c => parent.capabilitySet.contains c)

def tenantWithin (parent child : Presented) : Bool :=
  parent.trustDomain == child.trustDomain && parent.tenantId == child.tenantId

def expiryWithin (parent child : Presented) : Bool :=
  match parent.expiresAt, child.expiresAt with
  | some p, some c => decide (c ≤ p)
  | _, _ => false

/-- The checks of one hop. Without attestations, the last refuses two kernel keys. -/
def hopSteps (parent child : Presented) : List (Bool × ChainVerification) :=
  let sameKey := parent.thumbprint == child.thumbprint
  [(!sameKey || parent.tenantWithin child, .notAttenuated),
    (parent.scopeWithin child, .notAttenuated),
    (parent.capsWithin child, .notAttenuated),
    (parent.expiryWithin child, .notAttenuated),
    (sameKey, .inauthentic)]

variable (parent child : Presented)

omit [Runtime] in
theorem scopeAttenuates_ok :
    scopeAttenuates parent.members (.arr child.scopeBoundary) = .ok (parent.scopeWithin child) := by
  rw [scopeAttenuates, parent.get_scopeBoundary, scopeAttenuatesWithin_arr]
  rfl

theorem capsAttenuate_ok : capsAttenuate parent.members (.arr (child.capabilitySet.map .str)) =
    .ok (parent.capsWithin child) := by
  have one : ∀ c ∈ child.capabilitySet, includes (.arr (parent.capabilitySet.map .str)) (.str c) =
      .ok (parent.capabilitySet.contains c) := by
    intro c _
    simp only [includes, List.any_map, Function.comp_def, JsValue.sameValueZero,
      JsValue.strictEq_str, List.contains_eq_any_beq]
  rw [capsAttenuate, parent.get_capabilitySet, capsAttenuateWithin, arrayItems, Raising.ok_bind,
    Raising.allM_map_ok one, capsWithin]

theorem verifyHop_ok (keys : KernelKeyResolver) (now : Int) :
    verifyHop keys .empty now parent.members child.members =
      .ok (firstRefusal .attenuated (parent.hopSteps child)) := by
  have domain : ∀ d : Presented, d.members.get "trust_domain" = .str d.trustDomain :=
    fun d => d.get_str (by simp [requiredMembers])
  have tenant : ∀ d : Presented, d.members.get "tenant_id" = .str d.tenantId :=
    fun d => d.get_str (by simp [requiredMembers])
  have tenants : tenantAttenuates parent.members (.str child.trustDomain) (.str child.tenantId) =
      parent.tenantWithin child := by
    rw [tenantAttenuates, domain, tenant, tenantWithin]
    rfl
  have expiry : expiryAttenuates parent.members (child.members.get "expires_at") =
      parent.expiryWithin child := rfl
  have unattested : AttestationBundle.get .empty (.str (parent.text "vaid_id"))
      (.str (child.text "vaid_id")) = .ok none := rfl
  unfold verifyHop hopSteps
  simp only [get_thumbprint, domain, tenant, get_vaidId, child.get_scopeBoundary,
    child.get_capabilitySet, scopeAttenuates_ok, capsAttenuate_ok, tenants, expiry, unattested,
    JsValue.strictEq_str, Raising.ok_bind]
  cases parent.thumbprint == child.thumbprint <;> cases parent.tenantWithin child <;>
    cases parent.scopeWithin child <;> cases parent.capsWithin child <;>
    cases parent.expiryWithin child <;> rfl

end Presented

/-! ### The verdict on a chain -/

variable [Runtime]

/-- `own` is the thumbprint of a key. -/
def Presented.isAuthentic (keys : KernelKeyResolver) (own : Bytes → JsStr) (d : Presented) : Bool :=
  (keys (.str d.thumbprint)).any (fun key => d.authenticity key (own key) == .valid)

/-- What chain verification asks, without attestations. -/
def chainChecks (keys : KernelKeyResolver) (own : Bytes → JsStr) (now : Int) :
    Presentation.Checks Presented ChainVerification where
  authentic := Presented.isAuthentic keys own
  lapsed d := d.isExpired now
  hop := Presented.hopSteps
  inauthentic := .inauthentic
  unverifiable := .unverifiable
  expired := .expired

def presentedChain (leaf : Presented) (documents : List Presented) :
    Presentation Presented VaidId where
  name d := vaidIdOf d.members
  parent d := parentOf d.members
  leaf := leaf
  find i := (InsertionMap.ofList (fun d : Presented => vaidIdOf d.members) documents).lookup i
  name_of_find found := (InsertionMap.of_lookup_ofList found).1

/-- The presented documents that were not replaced. -/
def kept (documents : List Presented) : List Presented :=
  (InsertionMap.ofList (fun d : Presented => vaidIdOf d.members) documents).map Prod.snd

def chainSteps (leaf : Presented) (documents : List Presented) (keys : KernelKeyResolver)
    (own : Bytes → JsStr) (now : Int) : List (Bool × ChainVerification) :=
  (presentedChain leaf documents).steps (chainChecks keys own now) (kept documents) maxLineageDepth

variable {leaf : Presented} {documents : List Presented}

theorem hopSteps_refuse (parent child : Presented) :
    ∀ s ∈ parent.hopSteps child, s.2 ≠ .attenuated := by
  simp [Presented.hopSteps]

theorem authenticate_ok {own : Bytes → JsStr}
    (thumbprints : ∀ key, kernelKeyThumbprint key = .ok (own key)) (keys : KernelKeyResolver) (d : Presented) :
    authenticate keys d.members = .ok (d.isAuthentic keys own) := by
  rw [authenticate, d.get_thumbprint, Presented.isAuthentic]
  cases keys (.str d.thumbprint) with
  | none => rfl
  | some key =>
    dsimp only
    rw [verifyVaidAuthenticity, d.verifyVaidAuthenticityGraded_ok (thumbprints key)]
    rfl

theorem verifyHops_ok (keys : KernelKeyResolver) (now : Int) (docs : List Presented) :
    verifyHops keys .empty now (docs.map Presented.members) =
      .ok (firstRefusal .attenuated (Presentation.hops Presented.hopSteps docs)) := by
  induction docs with
  | nil => rfl
  | cons parent docs ih =>
    cases docs with
    | nil => rfl
    | cons child docs =>
      have here := parent.verifyHop_ok child keys now
      rw [List.map_cons] at ih
      rw [List.map_cons, List.map_cons, verifyHops, here, Raising.ok_bind, ih, Presentation.hops,
        Guards.firstRefusal_append,
        Guards.firstRefusal_then .attenuated
          (firstRefusal .attenuated (Presentation.hops Presented.hopSteps (child :: docs))) _
          (hopSteps_refuse parent child)]
      cases firstRefusal .attenuated (parent.hopSteps child) <;> rfl

omit [Runtime] in
theorem presentation_renaming (leaf : Presented) (documents : List Presented) :
    Presentation.Renaming (presentedChain leaf documents)
      (presentation leaf.members (documents.map Presented.members)) Presented.members id where
  injective := Function.injective_id
  leaf := rfl
  name _ := rfl
  parent _ := (congrFun Option.map_id _).symm
  find i := by
    have objects : bundleOf (documents.map Presented.members) =
        (InsertionMap.ofList (fun d : Presented => vaidIdOf d.members) documents).map
          (Prod.map id Presented.members) :=
      InsertionMap.ofList_map Presented.members (fun _ => rfl) documents
    change (bundleOf (documents.map Presented.members)).lookup i = _
    rw [objects]
    exact InsertionMap.lookup_map _ _ _

theorem verifyChainAt_ok {own : Bytes → JsStr}
    (thumbprints : ∀ key, kernelKeyThumbprint key = .ok (own key)) (keys : KernelKeyResolver) (now : Int) :
    verifyChainAt keys (.obj leaf.members) (bundleOf (documents.map Presented.members)) .empty now =
      .ok (firstRefusal .attenuated (chainSteps leaf documents keys own now)) := by
  have renamed := presentation_renaming leaf documents
  have objects : (bundleOf (documents.map Presented.members)).documents =
      (kept documents).map Presented.members := by
    rw [bundleOf, PresentedBundle.documents,
      InsertionMap.ofList_map Presented.members (fun _ => rfl) documents]
    simp [kept, Function.comp_def]
  have allAuthentic : (bundleOf (documents.map Presented.members)).documents.allM (authenticate keys) =
      .ok ((kept documents).all (Presented.isAuthentic keys own)) := by
    rw [objects]
    exact Raising.allM_map_ok (fun d _ => authenticate_ok thumbprints keys d)
  have names := renamed.names maxLineageDepth
  rw [List.map_id_fun, Option.map_id] at names
  have docs : ∀ ids : List VaidId, ids.mapM (chainDoc leaf.members
      (bundleOf (documents.map Presented.members))) =
      (ids.mapM (presentedChain leaf documents).docOf).map (List.map Presented.members) := by
    intro ids
    rw [chainDoc_eq]
    induction ids with
    | nil => rfl
    | cons i ids ih =>
      have one := renamed.docOf i
      rw [id] at one
      simp only [List.mapM_cons, one, ih]
      cases (presentedChain leaf documents).docOf i with
      | none => rfl
      | some d => cases ids.mapM (presentedChain leaf documents).docOf <;> rfl
  unfold verifyChainAt chainSteps Presentation.steps
  simp only [requireVaidShape_ok leaf.hasShape, authenticate_ok thumbprints keys leaf, allAuthentic,
    assembleLineage_ok leaf.hasShape, names, docs, Raising.ok_bind]
  change (if _ then _ else _) = Except.ok (firstRefusal _ ((leaf.isAuthentic keys own, _) ::
    ((kept documents).all (Presented.isAuthentic keys own), _) :: _))
  cases leaf.isAuthentic keys own with
  | false => rfl
  | true =>
    cases (kept documents).all (Presented.isAuthentic keys own) with
    | false => rfl
    | true =>
      simp only [Presentation.lineage]
      cases named : (presentedChain leaf documents).names maxLineageDepth with
      | none => rfl
      | some ids =>
        cases resolved : ids.mapM (presentedChain leaf documents).docOf with
        | none => simp [resolved]; rfl
        | some line =>
          have lapse : (line.map Presented.members).dropLast.any (fun d => isExpired d now) =
              line.dropLast.any (fun d => d.isExpired now) := by
            rw [← List.map_dropLast, List.any_map]
            rfl
          simp only [resolved, Option.bind_some, Option.map_some, id_eq, lapse,
            verifyHops_ok keys now line]
          change (if _ then _ else _) = Except.ok (firstRefusal _
            ((!line.dropLast.any (fun d => d.isExpired now), _) :: _))
          cases line.dropLast.any (fun d => d.isExpired now) <;> rfl

end VaidSuite.TypeScript
