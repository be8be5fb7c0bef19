import VaidSuite.CommonDocument
import VaidSuite.Python.PublicKey

/-! Chain verification of common documents under one kernel key: the three hosts give one
verdict. -/
namespace VaidSuite

open Guards (firstRefusal)
open Python (py)
open TypeScript (js)

theorem Python.Presented.scopeWithin_eq [Python.Libraries] (parent child : Python.Presented) :
    parent.scopeWithin child =
      (reasonOf Python.prefixContains parent.claimed child.claimed == .attenuated) := by
  rw [scopeWithin]
  cases parent.claimed with
  | none => rfl
  | some ps =>
    cases child.claimed with
    | none => rfl
    | some cs => exact (reasonOf_some Python.prefixContains ps cs).symm

theorem TypeScript.Presented.scopeWithin_eq (parent child : TypeScript.Presented) :
    parent.scopeWithin child =
      (reasonOf TypeScript.prefixContains parent.claimed child.claimed == .attenuated) := by
  rw [scopeWithin]
  cases parent.claimed with
  | none => rfl
  | some ps =>
    cases child.claimed with
    | none => rfl
    | some cs => exact (reasonOf_some TypeScript.prefixContains ps cs).symm

theorem contains_spelled {β : Type} [BEq β] [LawfulBEq β] {spell : String → β}
    (injective : spell.Injective) (parentCaps childCaps : List String) :
    (childCaps.map spell).all (fun c => (parentCaps.map spell).contains c) =
      capsAttenuateWithin parentCaps childCaps := by
  have one : ∀ c, (parentCaps.map spell).contains (spell c) = capsContain parentCaps c := by
    intro c
    rw [Bool.eq_iff_iff, capsContain_iff, List.contains_iff_mem, List.mem_map_of_injective injective]
  rw [List.all_map, capsAttenuateWithin]
  exact congrArg childCaps.all (funext one)

theorem VaidId.toString_injective : Function.Injective (fun i : VaidId => toString i) := by
  rintro ⟨i⟩ ⟨i'⟩ same
  have parsed := congrArg Uuid.parseStr same
  have back : ∀ u : Uuid, Uuid.parseStr (toString (⟨u⟩ : VaidId)) = some u := Uuid.parseStr_toString
  simp only [back, Option.some.injEq] at parsed
  rw [parsed]

def spelledPython (i : VaidId) : Python.PyStr := py (toString i)

/-- The spelling of an id in TypeScript. -/
def spelledTypeScript (i : VaidId) : TypeScript.VaidId := some (js (toString i))

theorem spelledPython_injective : spelledPython.Injective :=
  py_injective.comp VaidId.toString_injective

theorem spelledTypeScript_injective : spelledTypeScript.Injective :=
  (Option.some_injective _).comp (js_injective.comp VaidId.toString_injective)

section Agreement

variable [SerdeJson] [Crypto] [Chrono] [Python.Libraries] [TypeScript.Runtime]

namespace CommonDocument

variable (d parent child : CommonDocument)

omit [Crypto] [TypeScript.Runtime] [Chrono] in
theorem text_python {k s : String}
    (read : ∀ j, Deserialize.Reads j d.vaid → Deserialize.field j k Deserialize.string = some s) :
    d.presentedPython.text k = py s := by
  obtain ⟨j, held⟩ := d.heldAlike
  exact HeldAlike.text_python (d := d.presentedPython) (t := d.presentedTypeScript) held
    (read j held.reads)

omit [Crypto] [TypeScript.Runtime] [Chrono] in
theorem text_typescript {k s : String}
    (read : ∀ j, Deserialize.Reads j d.vaid → Deserialize.field j k Deserialize.string = some s) :
    d.presentedTypeScript.text k = js s := by
  obtain ⟨j, held⟩ := d.heldAlike
  exact HeldAlike.text_typescript (d := d.presentedPython) (t := d.presentedTypeScript) held
    (read j held.reads)

omit [Crypto] [TypeScript.Runtime] [Chrono] in
theorem claimed :
    d.presentedPython.claimed = (claimedResources d.vaid.scopeBoundary).map (List.map py) ∧
      d.presentedTypeScript.claimed = (claimedResources d.vaid.scopeBoundary).map (List.map js) := by
  obtain ⟨j, held⟩ := d.heldAlike
  obtain ⟨⟨items, dictHolds, same⟩, items', membersHold, same'⟩ :=
    held.scopeBoundary (held.objects d.presentedPython.contract)
  have python := d.presentedPython.get_scopeBoundary.symm.trans dictHolds
  have typescript := d.presentedTypeScript.get_scopeBoundary.symm.trans membersHold
  rw [Python.Presented.claimed, TypeScript.Presented.claimed, Json.arr.inj python,
    TypeScript.JsValue.arr.inj typescript]
  exact ⟨same, same'⟩

omit [Crypto] [TypeScript.Runtime] [Chrono] in
theorem capabilitySet : d.presentedPython.capabilitySet = d.vaid.capabilitySet.map py ∧
    d.presentedTypeScript.capabilitySet = d.vaid.capabilitySet.map js := by
  obtain ⟨j, held⟩ := d.heldAlike
  obtain ⟨dictHolds, membersHold⟩ := held.capabilitySet
  have python := d.presentedPython.get_capabilitySet.symm.trans dictHolds
  have typescript := d.presentedTypeScript.get_capabilitySet.symm.trans membersHold
  exact ⟨List.map_injective_iff.mpr (fun _ _ => Json.str.inj) (Json.arr.inj python),
    List.map_injective_iff.mpr (fun _ _ => TypeScript.JsValue.str.inj)
      (TypeScript.JsValue.arr.inj typescript)⟩

omit [Crypto] [TypeScript.Runtime] [Chrono] in
theorem expiresWhole : ∃ stamp,
    Expiry.ExpiresWhole d.vaid d.presentedPython d.presentedTypeScript stamp := by
  obtain ⟨stamp, whole⟩ := d.expiry
  obtain ⟨j, held⟩ := d.heldAlike
  obtain ⟨dict, members⟩ := held.field held.reads.expiresAt
  exact ⟨stamp, whole, dict, members⟩

variable (reads : Expiry.ReadsTimestamps)

include reads

omit [Crypto] in
theorem hopSteps_python :
    parent.presentedPython.hopSteps child.presentedPython = hopSteps parent.vaid child.vaid := by
  have thumbprint (d : CommonDocument) : d.presentedPython.thumbprint = py d.vaid.kernelKeyThumbprint :=
    d.text_python (fun _ reads => reads.kernelKeyThumbprint)
  have domain (d : CommonDocument) : d.presentedPython.trustDomain = py d.vaid.trustDomain :=
    d.text_python (fun _ reads => reads.trustDomain)
  have tenant (d : CommonDocument) : d.presentedPython.tenantId = py d.vaid.tenantId.asStr :=
    d.text_python (fun _ reads => reads.tenantId)
  have tenants : parent.presentedPython.tenantWithin child.presentedPython =
      tenantAttenuates parent.vaid child.vaid.trustDomain child.vaid.tenantId.asStr := by
    rw [Python.Presented.tenantWithin, domain, domain, tenant, tenant, beq_spelled py_injective,
      beq_spelled py_injective, tenantAttenuates]
  have scope : parent.presentedPython.scopeWithin child.presentedPython =
      scopeAttenuates parent.vaid child.vaid.scopeBoundary := by
    rw [Python.Presented.scopeWithin_eq, parent.claimed.1, child.claimed.1,
      reasonOf_map prefixContains_py, ← scopeAttenuationReason_eq]
    rfl
  have caps : parent.presentedPython.capsWithin child.presentedPython =
      capsAttenuate parent.vaid child.vaid.capabilitySet := by
    rw [Python.Presented.capsWithin, parent.capabilitySet.1, child.capabilitySet.1]
    exact contains_spelled py_injective _ _
  obtain ⟨_, parentWhole⟩ := parent.expiresWhole
  obtain ⟨_, childWhole⟩ := child.expiresWhole
  rw [Python.Presented.hopSteps, hopSteps, thumbprint, thumbprint, beq_spelled py_injective, tenants,
    scope, caps, (Expiry.contained_alike reads parentWhole childWhole).1]

omit [Crypto] in
theorem hopSteps_typescript :
    parent.presentedTypeScript.hopSteps child.presentedTypeScript =
      hopSteps parent.vaid child.vaid := by
  have thumbprint (d : CommonDocument) :
      d.presentedTypeScript.thumbprint = js d.vaid.kernelKeyThumbprint :=
    d.text_typescript (fun _ reads => reads.kernelKeyThumbprint)
  have domain (d : CommonDocument) : d.presentedTypeScript.trustDomain = js d.vaid.trustDomain :=
    d.text_typescript (fun _ reads => reads.trustDomain)
  have tenant (d : CommonDocument) : d.presentedTypeScript.tenantId = js d.vaid.tenantId.asStr :=
    d.text_typescript (fun _ reads => reads.tenantId)
  have tenants : parent.presentedTypeScript.tenantWithin child.presentedTypeScript =
      tenantAttenuates parent.vaid child.vaid.trustDomain child.vaid.tenantId.asStr := by
    rw [TypeScript.Presented.tenantWithin, domain, domain, tenant, tenant, beq_spelled js_injective,
      beq_spelled js_injective, tenantAttenuates]
  have scope : parent.presentedTypeScript.scopeWithin child.presentedTypeScript =
      scopeAttenuates parent.vaid child.vaid.scopeBoundary := by
    rw [TypeScript.Presented.scopeWithin_eq, parent.claimed.2, child.claimed.2,
      reasonOf_map prefixContains_js, ← scopeAttenuationReason_eq]
    rfl
  have caps : parent.presentedTypeScript.capsWithin child.presentedTypeScript =
      capsAttenuate parent.vaid child.vaid.capabilitySet := by
    rw [TypeScript.Presented.capsWithin, parent.capabilitySet.2, child.capabilitySet.2]
    exact contains_spelled js_injective _ _
  obtain ⟨_, parentWhole⟩ := parent.expiresWhole
  obtain ⟨_, childWhole⟩ := child.expiresWhole
  rw [TypeScript.Presented.hopSteps, hopSteps, thumbprint, thumbprint, beq_spelled js_injective,
    tenants, scope, caps, (Expiry.contained_alike reads parentWhole childWhole).2]

end CommonDocument

section Chain

variable (leaf : CommonDocument) (documents : List CommonDocument)

/-- The leaf among the presented documents. -/
def commonChain : Presentation CommonDocument VaidId where
  name d := d.vaid.vaidId
  parent d := d.vaid.parentVaid
  leaf := leaf
  find i := (InsertionMap.ofList (fun d : CommonDocument => d.vaid.vaidId) documents).lookup i
  name_of_find found := (InsertionMap.of_lookup_ofList found).1

/-- The presented documents that were not replaced. -/
def commonKept : List CommonDocument :=
  (InsertionMap.ofList (fun d : CommonDocument => d.vaid.vaidId) documents).map Prod.snd

namespace CommonDocument

variable (d : CommonDocument)

omit [Crypto] [Chrono] [TypeScript.Runtime] in
theorem id_python : d.presentedPython.vaidId = py (toString d.vaid.vaidId) := by
  obtain ⟨j, held⟩ := d.heldAlike
  have given : d.presentedPython.dict.get "vaid_id" = _ := (held.uuid held.reads.vaidId).1
  rw [Python.Presented.vaidId, Python.vaidIdOf, given, d.ids.vaidId]
  rfl

omit [Crypto] [Chrono] [TypeScript.Runtime] in
theorem id_typescript :
    TypeScript.vaidIdOf d.presentedTypeScript.members = some (js (toString d.vaid.vaidId)) := by
  obtain ⟨j, held⟩ := d.heldAlike
  have given : d.presentedTypeScript.members.get "vaid_id" = _ := (held.uuid held.reads.vaidId).2
  rw [TypeScript.vaidIdOf, given, d.ids.vaidId]
  rfl

omit [Crypto] [Chrono] [TypeScript.Runtime] in
theorem parent_python :
    d.presentedPython.parentVaid = d.vaid.parentVaid.map (fun p => py (toString p)) := by
  obtain ⟨j, held⟩ := d.heldAlike
  obtain ⟨_, parentGiven⟩ := d.given
  have given : d.presentedPython.dict.get "parent_vaid" = _ := (held.plainParent d.ids parentGiven).1
  rw [Python.Presented.parentVaid, Python.parentOf, given]
  cases d.vaid.parentVaid <;> rfl

omit [Crypto] [Chrono] [TypeScript.Runtime] in
theorem parent_typescript : TypeScript.parentOf d.presentedTypeScript.members =
    d.vaid.parentVaid.map (fun p => some (js (toString p))) := by
  obtain ⟨j, held⟩ := d.heldAlike
  obtain ⟨_, parentGiven⟩ := d.given
  have given : d.presentedTypeScript.members.get "parent_vaid" = _ :=
    (held.plainParent d.ids parentGiven).2
  rw [TypeScript.parentOf, given]
  cases d.vaid.parentVaid <;> rfl

end CommonDocument

omit [Crypto] [Chrono] [TypeScript.Runtime] in
theorem renaming_rust : Presentation.Renaming (commonChain leaf documents)
    (presentation leaf.vaid (PresentedBundle.new (documents.map CommonDocument.vaid)))
    CommonDocument.vaid id where
  injective := Function.injective_id
  leaf := rfl
  name _ := rfl
  parent _ := (congrFun Option.map_id _).symm
  find i := Keyed.get_ofList_image (fun _ => rfl) documents i

omit [Crypto] [Chrono] [TypeScript.Runtime] in
theorem renaming_python : Presentation.Renaming (commonChain leaf documents)
    (Python.presentation leaf.presentedPython (documents.map CommonDocument.presentedPython))
    CommonDocument.presentedPython spelledPython where
  injective := spelledPython_injective
  leaf := rfl
  name d := d.id_python
  parent d := d.parent_python
  find i :=
    InsertionMap.lookup_ofList_image spelledPython_injective (fun d => d.id_python) documents i

omit [Crypto] [Chrono] [TypeScript.Runtime] in
theorem renaming_typescript : Presentation.Renaming (commonChain leaf documents)
    (TypeScript.presentedChain leaf.presentedTypeScript
      (documents.map CommonDocument.presentedTypeScript))
    CommonDocument.presentedTypeScript spelledTypeScript where
  injective := spelledTypeScript_injective
  leaf := rfl
  name d := d.id_typescript
  parent d := d.parent_typescript
  find i :=
    InsertionMap.lookup_ofList_image spelledTypeScript_injective (fun d => d.id_typescript) documents i

end Chain

section Checks

/-- What chain verification asks of common documents. -/
def commonChecks (keys : KernelKeyResolver) (now : Expiry.Now) :
    Presentation.Checks CommonDocument ChainVerification where
  authentic d := authenticate keys d.vaid
  lapsed d := d.vaid.isExpiredAt now.instant
  hop parent child := hopSteps parent.vaid child.vaid
  inauthentic := .inauthentic
  unverifiable := .unverifiable
  expired := .expired

/-- Resolvers of the three hosts that accept the same key for each thumbprint. `trusted` is what
the one in Python answers. -/
structure SameKeys (keys : KernelKeyResolver) (python : Python.KernelKeyResolver)
    (trusted : Python.Trust) (typescript : TypeScript.KernelKeyResolver) : Prop where
  answers : ∀ t, python (.str t) = .ok (trusted t)
  python : ∀ s, trusted (py s) = keys s
  typescript : ∀ s, typescript (.str (js s)) = keys s

def ownThumbprint (key : Bytes) : TypeScript.JsStr := js (kernelKeyThumbprint key)

variable {keys : KernelKeyResolver} {python : Python.KernelKeyResolver} {trusted : Python.Trust}
  {typescript : TypeScript.KernelKeyResolver}
variable (same : SameFunctions) (alike : SameKeys keys python trusted typescript) (d : CommonDocument)

omit [SerdeJson] [Chrono] [Python.Libraries] [TypeScript.Runtime] in
theorem authenticate_eq (vaid : Vaid) : authenticate keys vaid =
    (keys vaid.kernelKeyThumbprint).any (fun key => verifyVaidAuthenticityGraded key vaid == .valid) := by
  rw [authenticate]
  cases keys vaid.kernelKeyThumbprint with
  | none => rfl
  | some key =>
    dsimp only
    rw [verifyVaidAuthenticity, Option.any_some]
    cases verifyVaidAuthenticityGraded key vaid <;> rfl

include same alike

omit [Chrono] in
theorem isAuthentic_python : d.presentedPython.isAuthentic trusted = authenticate keys d.vaid := by
  obtain ⟨j, held⟩ := d.heldAlike
  have thumbprint : d.presentedPython.thumbprint = py d.vaid.kernelKeyThumbprint :=
    d.text_python (fun _ reads => reads.kernelKeyThumbprint)
  have verdict : ∀ key, d.presentedPython.authenticity key = verifyVaidAuthenticityGraded key d.vaid :=
    authenticity_python (d := d.presentedPython) (t := d.presentedTypeScript) same held d.ids
  rw [authenticate_eq, Python.Presented.isAuthentic, thumbprint, alike.python]
  simp only [verdict]

omit [Chrono] in
theorem isAuthentic_typescript :
    d.presentedTypeScript.isAuthentic typescript ownThumbprint = authenticate keys d.vaid := by
  obtain ⟨j, held⟩ := d.heldAlike
  have thumbprint : d.presentedTypeScript.thumbprint = js d.vaid.kernelKeyThumbprint :=
    d.text_typescript (fun _ reads => reads.kernelKeyThumbprint)
  have verdict : ∀ key, d.presentedTypeScript.authenticity key (ownThumbprint key) =
      verifyVaidAuthenticityGraded key d.vaid :=
    authenticity_typescript (d := d.presentedPython) (t := d.presentedTypeScript) same held d.ids
  rw [authenticate_eq, TypeScript.Presented.isAuthentic, thumbprint, alike.typescript]
  simp only [verdict]

end Checks

section Keys

variable (same : SameFunctions)

/-- `SingleKernelKey(public_key)`. -/
def Python.SingleKernelKey.new (publicKey : Bytes) : Python.Raises Python.KernelKeyResolver := do
  let thumbprint ← Python.kernelKeyThumbprint publicKey
  return Python.Mcp.singleKernelKey thumbprint publicKey

/-- `KernelKeyMap(public_keys)`. -/
def Python.KernelKeyMap.new (publicKeys : List Bytes) : Python.Raises Python.KernelKeyResolver := do
  let thumbprints ← publicKeys.mapM Python.kernelKeyThumbprint
  return Python.Mcp.kernelKeyMap (thumbprints.zip publicKeys)

def filedUnder {β : Type} (spell : String → β) (publicKey : Bytes) : β × Bytes :=
  (spell (kernelKeyThumbprint publicKey), publicKey)

omit [SerdeJson] [Chrono] [Python.Libraries] [TypeScript.Runtime] in
theorem zip_filedUnder {β : Type} (spell : String → β) (publicKeys : List Bytes) :
    (publicKeys.map (fun k => spell (kernelKeyThumbprint k))).zip publicKeys =
      publicKeys.map (filedUnder spell) := by
  induction publicKeys with
  | nil => rfl
  | cons key publicKeys ih => rw [List.map_cons, List.zip_cons_cons, ih, List.map_cons, filedUnder]

omit [SerdeJson] [Chrono] [Python.Libraries] [TypeScript.Runtime] in
/-- In each host the last key of a thumbprint is kept, under its spelling of that thumbprint. -/
theorem lookup_filedUnder {β : Type} [DecidableEq β] [BEq β] [LawfulBEq β] {spell : String → β}
    (injective : spell.Injective) (publicKeys : List Bytes) (s : String) :
    ((InsertionMap.ofList Prod.fst (publicKeys.map (filedUnder spell))).lookup (spell s)).map Prod.snd =
      KernelKeyMap.new publicKeys s := by
  have named : ∀ key, Prod.fst (filedUnder spell key) = spell (kernelKeyThumbprint key) := fun _ => rfl
  rw [InsertionMap.lookup_ofList_image injective named, Option.map_map, KernelKeyMap.new]
  exact congrFun Option.map_id _

include same

omit [SerdeJson] [Chrono] in
theorem sameKeys_single (key : Bytes) : ∃ python trusted typescript,
    Python.SingleKernelKey.new key = .ok python ∧ TypeScript.SingleKernelKey.new key = .ok typescript ∧
      SameKeys (SingleKernelKey.new key) python trusted typescript := by
  refine ⟨Python.Mcp.singleKernelKey (py (kernelKeyThumbprint key)) key,
    fun t => if t = py (kernelKeyThumbprint key) then some key else none,
    fun t => if t.strictEq (.str (js (kernelKeyThumbprint key))) then some key else none, ?_, ?_, ?_⟩
  · rw [Python.SingleKernelKey.new, same.kernelKeyThumbprint_python]
    rfl
  · rw [TypeScript.SingleKernelKey.new, same.kernelKeyThumbprint_typescript]
    rfl
  · constructor
    · intro t
      simp [Python.Mcp.singleKernelKey, Python.pyEq]
    · intro s
      simp only [SingleKernelKey.new, py_injective.eq_iff]
    · intro s
      simp only [SingleKernelKey.new, TypeScript.JsValue.strictEq_str, beq_iff_eq, js_injective.eq_iff]

omit [SerdeJson] [Chrono] in
theorem sameKeys_map (publicKeys : List Bytes) : ∃ python trusted typescript,
    Python.KernelKeyMap.new publicKeys = .ok python ∧
      TypeScript.KernelKeyMap.new publicKeys = .ok typescript ∧
      SameKeys (KernelKeyMap.new publicKeys) python trusted typescript := by
  refine ⟨Python.Mcp.kernelKeyMap (publicKeys.map (filedUnder py)),
    fun t => ((InsertionMap.ofList Prod.fst (publicKeys.map (filedUnder py))).lookup t).map Prod.snd,
    fun t => t.asStr.bind (fun s => ((publicKeys.map (filedUnder js)).foldl
      (fun m e => InsertionMap.set e.1 e.2 m) []).lookup s), ?_, ?_, ?_⟩
  · rw [Python.KernelKeyMap.new, Raising.mapM_ok (fun k _ => same.kernelKeyThumbprint_python k),
      Raising.ok_bind, zip_filedUnder]
    rfl
  · rw [TypeScript.KernelKeyMap.new, Raising.mapM_ok (fun k _ => same.kernelKeyThumbprint_typescript k),
      Raising.ok_bind, zip_filedUnder]
    rfl
  · constructor
    · intro t
      rfl
    · intro s
      exact lookup_filedUnder py_injective publicKeys s
    · intro s
      show List.lookup _ _ = _
      rw [InsertionMap.foldl_set_map Prod.fst Prod.snd, InsertionMap.lookup_map]
      exact lookup_filedUnder js_injective publicKeys s

end Keys

section Verdict

variable (same : SameFunctions) (reads : Expiry.ReadsTimestamps) (keys : KernelKeyResolver)
  {python : Python.KernelKeyResolver} {trusted : Python.Trust}
  {typescript : TypeScript.KernelKeyResolver}
variable (alike : SameKeys keys python trusted typescript)
variable (leaf : CommonDocument) (documents : List CommonDocument) (now : Expiry.Now)

/-- What chain verification of the common documents decides by. -/
def commonSteps : List (Bool × ChainVerification) :=
  (commonChain leaf documents).steps (commonChecks keys now) (commonKept documents) maxLineageDepth

def commonVerdict : ChainVerification := firstRefusal .attenuated (commonSteps keys leaf documents now)

omit [TypeScript.Runtime] in
theorem verdict_rust : verifyChainAt keys leaf.vaid
    (PresentedBundle.new (documents.map CommonDocument.vaid)) AttestationBundle.empty now.instant =
      some (commonVerdict keys leaf documents now) := by
  have steps :
      (presentation leaf.vaid (PresentedBundle.new (documents.map CommonDocument.vaid))).steps
        (chainChecks keys now.instant) (PresentedBundle.new (documents.map CommonDocument.vaid)).items
        maxLineageDepth = commonSteps keys leaf documents now :=
    (renaming_rust leaf documents).steps maxLineageDepth (fun _ => rfl) (fun _ => rfl) (fun _ _ => rfl)
      (Keyed.mem_items_image (fun _ => rfl) documents) rfl rfl rfl
  rw [verifyChainAt_eq, steps, commonVerdict]

include same reads alike

theorem steps_python : Python.chainSteps leaf.presentedPython
    (documents.map CommonDocument.presentedPython) trusted now.datetime =
      commonSteps keys leaf documents now := by
  have kept : Python.kept (documents.map CommonDocument.presentedPython) =
      (commonKept documents).map CommonDocument.presentedPython :=
    InsertionMap.values_ofList_image spelledPython_injective (fun d => d.id_python) documents
  refine (renaming_python leaf documents).steps maxLineageDepth (isAuthentic_python same alike)
    (fun d => ?_) (fun parent child => parent.hopSteps_python child reads) (fun e => ?_) rfl rfl rfl
  · obtain ⟨_, whole⟩ := d.expiresWhole
    exact (Expiry.lapses_alike reads whole now).1
  · rw [kept, List.mem_map]

theorem steps_typescript : TypeScript.chainSteps leaf.presentedTypeScript
    (documents.map CommonDocument.presentedTypeScript) typescript ownThumbprint now.millis =
      commonSteps keys leaf documents now := by
  have kept : TypeScript.kept (documents.map CommonDocument.presentedTypeScript) =
      (commonKept documents).map CommonDocument.presentedTypeScript :=
    InsertionMap.values_ofList_image spelledTypeScript_injective (fun d => d.id_typescript) documents
  refine (renaming_typescript leaf documents).steps maxLineageDepth (isAuthentic_typescript same alike)
    (fun d => ?_) (fun parent child => parent.hopSteps_typescript child reads) (fun e => ?_) rfl rfl rfl
  · obtain ⟨_, whole⟩ := d.expiresWhole
    exact (Expiry.lapses_alike reads whole now).2
  · rw [kept, List.mem_map]

theorem verdict_python :
    (do let bundle ← Python.PresentedBundle.new (documents.map CommonDocument.dict)
        Python.verifyChainAt python leaf.dict bundle .empty now.datetime) =
      .ok (commonVerdict keys leaf documents now) := by
  have dicts : documents.map CommonDocument.dict =
      (documents.map CommonDocument.presentedPython).map Python.Presented.dict := by
    rw [List.map_map]
    rfl
  have common : ∀ d ∈ leaf.presentedPython :: documents.map CommonDocument.presentedPython,
      ∃ c : CommonDocument, c.presentedPython = d := by
    intro d member
    rcases List.mem_cons.mp member with rfl | member
    · exact ⟨leaf, rfl⟩
    · obtain ⟨c, _, rfl⟩ := List.mem_map.mp member
      exact ⟨c, rfl⟩
  have verdict : Python.verifyChainAt python leaf.presentedPython.dict
      (Python.bundleOf (documents.map CommonDocument.presentedPython)) .empty now.datetime = .ok _ :=
    Python.verifyChainAt_ok now.datetime alike.answers
    (fun d member _ _ => by
      obtain ⟨c, rfl⟩ := common d member
      have domain : c.presentedPython.trustDomain = py c.vaid.trustDomain :=
        c.text_python (fun _ reads => reads.trustDomain)
      exact domain ▸ Python.encodable_py _)
    (fun docs assembled d member => by
      obtain ⟨c, rfl⟩ := common d (Python.mem_of_mem_lineage assembled member)
      obtain ⟨_, expires⟩ := c.expiresWhole
      obtain ⟨_, _, _, timely⟩ := Expiry.python_reads reads expires.whole expires.dict
      exact timely)
  rw [dicts, Python.PresentedBundle.new_ok, commonVerdict, ← steps_python same reads keys alike,
    ← verdict]
  rfl

theorem verdict_typescript :
    (do let bundle ← TypeScript.PresentedBundle.new ((documents.map CommonDocument.members).map .obj)
        TypeScript.verifyChainAt typescript (.obj leaf.members) bundle .empty now.millis) =
      .ok (commonVerdict keys leaf documents now) := by
  have objects : documents.map CommonDocument.members =
      (documents.map CommonDocument.presentedTypeScript).map TypeScript.Presented.members := by
    rw [List.map_map]
    rfl
  have shapes : ∀ m ∈ (documents.map CommonDocument.presentedTypeScript).map
      TypeScript.Presented.members, TypeScript.hasShape m = true := by
    intro m member
    obtain ⟨t, _, rfl⟩ := List.mem_map.mp member
    exact t.hasShape
  have verdict : TypeScript.verifyChainAt typescript (.obj leaf.presentedTypeScript.members)
      (TypeScript.bundleOf ((documents.map CommonDocument.presentedTypeScript).map
        TypeScript.Presented.members)) .empty now.millis = .ok _ :=
    TypeScript.verifyChainAt_ok same.kernelKeyThumbprint_typescript typescript now.millis
  rw [objects, TypeScript.PresentedBundle.new_ok shapes, Raising.ok_bind, commonVerdict,
    ← steps_typescript same reads keys alike]
  exact verdict

omit alike

/-- On common documents the three verifiers give one reason, under one kernel key. -/
theorem chain_reasons_agree (key : Bytes) : ∃ verdict,
    verifyChainAt (SingleKernelKey.new key) leaf.vaid
        (PresentedBundle.new (documents.map CommonDocument.vaid)) AttestationBundle.empty
        now.instant = some verdict ∧
    (do let keys ← Python.SingleKernelKey.new key
        let bundle ← Python.PresentedBundle.new (documents.map CommonDocument.dict)
        Python.verifyChainAt keys leaf.dict bundle .empty now.datetime) = .ok verdict ∧
    (do let keys ← TypeScript.SingleKernelKey.new key
        let bundle ← TypeScript.PresentedBundle.new ((documents.map CommonDocument.members).map .obj)
        TypeScript.verifyChainAt keys (.obj leaf.members) bundle .empty now.millis) = .ok verdict := by
  obtain ⟨python, trusted, typescript, inPython, inTypeScript, alike⟩ := sameKeys_single same key
  rw [inPython, inTypeScript]
  exact ⟨_, verdict_rust _ leaf documents now, verdict_python same reads _ alike leaf documents now,
    verdict_typescript same reads _ alike leaf documents now⟩

/-- They do under every map of kernel keys, chains that cross from key to key included. -/
theorem chain_verdicts_agree (publicKeys : List Bytes) : ∃ verdict,
    verifyChainAt (KernelKeyMap.new publicKeys) leaf.vaid
        (PresentedBundle.new (documents.map CommonDocument.vaid)) AttestationBundle.empty
        now.instant = some verdict ∧
    (do let keys ← Python.KernelKeyMap.new publicKeys
        let bundle ← Python.PresentedBundle.new (documents.map CommonDocument.dict)
        Python.verifyChainAt keys leaf.dict bundle .empty now.datetime) = .ok verdict ∧
    (do let keys ← TypeScript.KernelKeyMap.new publicKeys
        let bundle ← TypeScript.PresentedBundle.new ((documents.map CommonDocument.members).map .obj)
        TypeScript.verifyChainAt keys (.obj leaf.members) bundle .empty now.millis) = .ok verdict := by
  obtain ⟨python, trusted, typescript, inPython, inTypeScript, alike⟩ := sameKeys_map same publicKeys
  rw [inPython, inTypeScript]
  exact ⟨_, verdict_rust _ leaf documents now, verdict_python same reads _ alike leaf documents now,
    verdict_typescript same reads _ alike leaf documents now⟩

end Verdict

end Agreement

section Examples

/-- Hashing to a checksum of one byte, signed with the first byte of the key. -/
@[reducible] def chainCrypto : Crypto where
  sha256 data := [UInt8.ofNat (data.map UInt8.toNat).sum]
  jcs j := j.compact.map (fun c => UInt8.ofNat c.toNat)
  publicKey kp := kp.seed
  sign kp message := kp.seed.take 1 ++ message
  ed25519Verify publicKey message signature :=
    publicKey.length == 32 && signature == publicKey.take 1 ++ message

@[reducible] def chainLibraries : Python.Libraries :=
  { Expiry.libraries with
    sha256 := chainCrypto.sha256
    canonicalize := fun v => (Python.jsonOf v).map chainCrypto.jcs
    ed25519Verify := fun key signature message => chainCrypto.ed25519Verify key message signature }

@[reducible] def chainRuntime : TypeScript.Runtime :=
  { Expiry.runtime with
    sha256 := chainCrypto.sha256
    canonicalize := fun v => (TypeScript.jsonOf v).map chainCrypto.jcs
    ed25519Verify := fun signature message key => chainCrypto.ed25519Verify key message signature }

attribute [local instance] chainCrypto chainLibraries chainRuntime Expiry.chrono SerdeJson.integersOnly

theorem chainFunctions : SameFunctions where
  sha256_python _ := rfl
  sha256_typescript _ := rfl
  canonicalize_python _ _ value := congrArg (Option.map chainCrypto.jcs) value
  canonicalize_typescript _ _ value := congrArg (Option.map chainCrypto.jcs) value
  key_length _ _ _ verified := eq_of_beq (Bool.and_eq_true_iff.mp verified).1
  verify_python _ _ _ _ := rfl
  verify_typescript _ _ _ := rfl

theorem chainReads : Expiry.ReadsTimestamps := by
  obtain ⟨rust, python, typescript⟩ := Expiry.readsTimestamps
  exact ⟨rust, python, typescript⟩

def chainText (id parent expiresAt signature lineage thumbprint : String) : List Char :=
  objectText [("sig_version", ['4']), ("vaid_id", quoted id), ("agent_id", quoted id),
    ("agent_class", quoted ""), ("version", quoted ""), ("tenant_id", quoted ""),
    ("issued_at", quoted "2029-12-31T00:00:00Z"), ("expires_at", quoted expiresAt),
    ("public_key_der", "[]".toList), ("kernel_signature", signature.toList),
    ("parent_vaid", parent.toList), ("scope_boundary", "[]".toList), ("lineage_hash", quoted lineage),
    ("capability_set", "[]".toList), ("trust_domain", quoted "vaid.acme.com"),
    ("kernel_key_thumbprint", quoted ("urn:ietf:params:oauth:jwk-thumbprint:sha-256:" ++ thumbprint))]

def chainKey : Bytes := List.replicate 32 0

def otherKey : Bytes := List.replicate 32 1

def rootChars : List Char :=
  chainText "00000000-0000-4000-8000-000000000001" "null" "2031-01-01T00:00:00Z" "[0,187]" "09" "NQ"

def childChars : List Char :=
  chainText "00000000-0000-4000-8000-000000000002"
    (String.ofList (quoted "00000000-0000-4000-8000-000000000001")) "2030-01-01T00:00:00Z" "[0,99]" "bd"
    "NQ"

/-- A root that the other key signed. -/
def besideChars : List Char :=
  chainText "00000000-0000-4000-8000-000000000003" "null" "2031-01-01T00:00:00Z" "[1,7]" "0b" "Gw"

def isCommon (vaid : Vaid) : Bool :=
  vaid.presentedVaidId.asPresented == toString vaid.vaidId &&
  vaid.presentedAgentId.asPresented == toString vaid.agentId &&
  vaid.presentedParent.any (fun parent => parent.all (fun p => p.asPresented == toString p.uuid)) &&
  (Rfc3339.parse (JsonText.codes vaid.expiresAtAsPresented)).any (fun stamp =>
    JsonText.codes vaid.expiresAtAsPresented == stamp.text && stamp.zone == .zulu false &&
      stamp.fraction == [] && stamp.second != 60 && decide (1970 ≤ stamp.year) &&
      decide (stamp.year ≤ 9999)) &&
  vaid.scopeBoundary.all (fun e => e.kind == scopeKindPrefix) && vaid.unknownFields.members.isEmpty

theorem exists_common (chars : List Char)
    (rust : (SerdeJson.fromStr (String.ofList chars)).any isCommon = true)
    (python : (Python.parseVaidDocument (chars.map Python.CodePoint.ofChar)).isSome = true)
    (typescript : (TypeScript.parseVaidDocument (chars.flatMap TypeScript.utf16)).isSome = true) :
    ∃ d : CommonDocument, d.text = String.ofList chars := by
  obtain ⟨vaid, read, common⟩ := (Option.any_eq_true _ _).mp rust
  obtain ⟨dict, inPython⟩ := Option.isSome_iff_exists.mp python
  obtain ⟨members, inTypeScript⟩ := Option.isSome_iff_exists.mp typescript
  simp only [isCommon, Bool.and_eq_true, beq_iff_eq, Option.any_eq_true, bne_iff_ne, ne_eq,
    decide_eq_true_eq, List.all_eq_true, List.isEmpty_iff] at common
  obtain ⟨⟨⟨⟨⟨id, agent⟩, parent, given, spelled⟩, stamp, parsed, ⟨⟨⟨⟨text, zulu⟩, whole⟩, plain⟩, since⟩,
    fourDigits⟩, prefixes⟩, known⟩ := common
  refine ⟨⟨String.ofList chars, vaid, dict, members, read, ?_, ?_, ⟨id, agent, ?_⟩, ⟨parent, given⟩,
    ⟨stamp, text, zulu, whole, plain, since, fourDigits⟩, prefixes, known⟩, rfl⟩
  · rw [py, String.toList_ofList, inPython]
  · rw [js, String.toList_ofList, inTypeScript]
  · rintro p same
    rw [given] at same
    cases same
    simpa using spelled

theorem SerdeJson.fromStr_ofList (chars : List Char) : SerdeJson.fromStr (String.ofList chars) = (do
    let tree ← JsonText.read (chars.map Char.toNat)
    if SerdeJson.repeatsNamedField tree then none else SerdeJson.lastWins tree) := by
  rw [SerdeJson.fromStr, codes_ofList]

theorem exists_root : ∃ root : CommonDocument, root.text = String.ofList rootChars :=
  exists_common rootChars (by rw [SerdeJson.fromStr_ofList]; decide +kernel) (by decide +kernel)
    (by decide +kernel)

/-- The child is held within its root under its own key, and under two keys with a root of the other
key beside. -/
theorem exists_line : ∃ root child beside : CommonDocument,
    root.text = String.ofList rootChars ∧ child.text = String.ofList childChars ∧
    beside.text = String.ofList besideChars ∧
    verifyChainAt (SingleKernelKey.new chainKey) child.vaid (PresentedBundle.new [root.vaid])
      AttestationBundle.empty Expiry.newYear.instant = some .attenuated ∧
    verifyChainAt (KernelKeyMap.new [chainKey, otherKey]) child.vaid
      (PresentedBundle.new [root.vaid, beside.vaid]) AttestationBundle.empty Expiry.newYear.instant =
        some .attenuated := by
  obtain ⟨root, rootText⟩ := exists_root
  obtain ⟨child, childText⟩ := exists_common childChars
    (by rw [SerdeJson.fromStr_ofList]; decide +kernel) (by decide +kernel) (by decide +kernel)
  obtain ⟨beside, besideText⟩ := exists_common besideChars
    (by rw [SerdeJson.fromStr_ofList]; decide +kernel) (by decide +kernel) (by decide +kernel)
  have attenuated : (SerdeJson.fromStr (String.ofList rootChars)).any (fun root =>
      (SerdeJson.fromStr (String.ofList childChars)).any (fun child =>
        (SerdeJson.fromStr (String.ofList besideChars)).any (fun beside =>
          verifyChainAt (SingleKernelKey.new chainKey) child (PresentedBundle.new [root])
            AttestationBundle.empty Expiry.newYear.instant == some .attenuated &&
          verifyChainAt (KernelKeyMap.new [chainKey, otherKey]) child (PresentedBundle.new [root, beside])
            AttestationBundle.empty Expiry.newYear.instant == some .attenuated))) = true := by
    simp only [SerdeJson.fromStr_ofList]
    decide +kernel
  rw [← rootText, ← childText, ← besideText, root.rust, child.rust, beside.rust, Option.any_some,
    Option.any_some, Option.any_some, Bool.and_eq_true] at attenuated
  exact ⟨root, child, beside, rootText, childText, besideText, eq_of_beq attenuated.1,
    eq_of_beq attenuated.2⟩

/-- The three hosts hold a child within its root. -/
theorem chain_reasons_agree_child : ∃ root child : CommonDocument,
    root.text = String.ofList rootChars ∧ child.text = String.ofList childChars ∧
    verifyChainAt (SingleKernelKey.new chainKey) child.vaid (PresentedBundle.new [root.vaid])
      AttestationBundle.empty Expiry.newYear.instant = some .attenuated ∧
    ∃ verdict,
      verifyChainAt (SingleKernelKey.new chainKey) child.vaid (PresentedBundle.new [root.vaid])
        AttestationBundle.empty Expiry.newYear.instant = some verdict ∧
      (do let keys ← Python.SingleKernelKey.new chainKey
          let bundle ← Python.PresentedBundle.new [root.dict]
          Python.verifyChainAt keys child.dict bundle .empty Expiry.newYear.datetime) = .ok verdict ∧
      (do let keys ← TypeScript.SingleKernelKey.new chainKey
          let bundle ← TypeScript.PresentedBundle.new [.obj root.members]
          TypeScript.verifyChainAt keys (.obj child.members) bundle .empty Expiry.newYear.millis) =
        .ok verdict := by
  obtain ⟨root, child, _, rootText, childText, _, attenuated, _⟩ := exists_line
  exact ⟨root, child, rootText, childText, attenuated,
    chain_reasons_agree chainFunctions chainReads child [root] Expiry.newYear chainKey⟩

/-- So they do with a root of another key beside the child's own. -/
theorem chain_verdicts_agree_attenuated : ∃ root child beside : CommonDocument,
    root.text = String.ofList rootChars ∧ child.text = String.ofList childChars ∧
    beside.text = String.ofList besideChars ∧
    verifyChainAt (KernelKeyMap.new [chainKey, otherKey]) child.vaid
        (PresentedBundle.new [root.vaid, beside.vaid]) AttestationBundle.empty Expiry.newYear.instant =
      some .attenuated ∧
    ∃ verdict,
      verifyChainAt (KernelKeyMap.new [chainKey, otherKey]) child.vaid
          (PresentedBundle.new [root.vaid, beside.vaid]) AttestationBundle.empty Expiry.newYear.instant =
        some verdict ∧
      (do let keys ← Python.KernelKeyMap.new [chainKey, otherKey]
          let bundle ← Python.PresentedBundle.new [root.dict, beside.dict]
          Python.verifyChainAt keys child.dict bundle .empty Expiry.newYear.datetime) = .ok verdict ∧
      (do let keys ← TypeScript.KernelKeyMap.new [chainKey, otherKey]
          let bundle ← TypeScript.PresentedBundle.new [.obj root.members, .obj beside.members]
          TypeScript.verifyChainAt keys (.obj child.members) bundle .empty Expiry.newYear.millis) =
        .ok verdict := by
  obtain ⟨root, child, beside, rootText, childText, besideText, _, attenuated⟩ := exists_line
  exact ⟨root, child, beside, rootText, childText, besideText, attenuated,
    chain_verdicts_agree chainFunctions chainReads child [root, beside] Expiry.newYear
      [chainKey, otherKey]⟩

end Examples

end VaidSuite
