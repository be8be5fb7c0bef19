import VaidSuite.FromJson
import VaidSuite.Python.Document
import VaidSuite.TypeScript.Presented
import VaidSuite.TypeScript.Stringify

/-! The scope and attenuation rules over the code units of the three implementations: the
UTF-8 bytes of Rust, the code points of Python and the UTF-16 code units of TypeScript. -/
namespace VaidSuite

open Containment (Coding Reserved)
open Python (PyValue CodePoint py)
open TypeScript (JsValue utf16 js)

mutual

/-- A JSON value as `json.loads` gives it. -/
def Json.toPython : Json String → PyValue
  | .null => .null
  | .bool b => .bool b
  | .num n => .num n
  | .str s => .str (py s)
  | .arr items => .arr (Json.toPythonItems items)
  | .obj members => .obj (Json.toPythonMembers members)

def Json.toPythonItems : List (Json String) → List PyValue
  | [] => []
  | j :: items => j.toPython :: Json.toPythonItems items

def Json.toPythonMembers : List (String × Json String) → Python.Dict
  | [] => []
  | (name, j) :: members => (py name, j.toPython) :: Json.toPythonMembers members

end

/-- A number as `JSON.parse` gives it. -/
def JsonNumber.asDouble : JsonNumber → Binary64.Bits
  | .int n => Binary64.ofDecimal (decide (n < 0)) n.natAbs 0
  | .float bits => bits

mutual

/-- A JSON value as `JSON.parse` gives it. -/
def Json.toTypeScript : Json String → JsValue
  | .null => .null
  | .bool b => .bool b
  | .num n => .num n.asDouble
  | .str s => .str (js s)
  | .arr items => .arr (Json.toTypeScriptItems items)
  | .obj members => .obj (Json.toTypeScriptMembers members)

def Json.toTypeScriptItems : List (Json String) → List JsValue
  | [] => []
  | j :: items => j.toTypeScript :: Json.toTypeScriptItems items

def Json.toTypeScriptMembers : List (String × Json String) → TypeScript.Members
  | [] => []
  | (name, j) :: members => (js name, j.toTypeScript) :: Json.toTypeScriptMembers members

end

namespace ScopeBoundaryEntry

def toPython (e : ScopeBoundaryEntry) : PyValue := e.toJson.toPython

def toTypeScript (e : ScopeBoundaryEntry) : JsValue := e.toJson.toTypeScript

end ScopeBoundaryEntry

namespace Utf8

/-- `prefix_contains`, where a `str` is the bytes it is made of. -/
def prefixContains (pfx resource : Bytes) : Bool :=
  if pfx = [] then true
  else if resource = pfx then true
  else if scopeSeparators.any (fun sep => (String.utf8EncodeChar sep).isSuffixOf pfx) then
    pfx.isPrefixOf resource
  else scopeSeparators.any (fun sep => (pfx ++ String.utf8EncodeChar sep).isPrefixOf resource)

def entryClaimedResource (entry : ScopeBoundaryEntry) : Option Bytes :=
  if utf8 entry.kind = utf8 scopeKindPrefix then entry.value.val.asStr.map utf8 else none

def entryContains (entry : ScopeBoundaryEntry) (resource : Bytes) : Option Bool :=
  if utf8 entry.kind = utf8 scopeKindPrefix then
    entry.value.val.asStr.map (fun p => prefixContains (utf8 p) resource)
  else none

def entryIsEvaluable (entry : ScopeBoundaryEntry) : Bool := (entryContains entry []).isSome

def boundaryIsEvaluable (boundary : List ScopeBoundaryEntry) : Bool :=
  boundary.all entryIsEvaluable

def scopeContains (boundary : List ScopeBoundaryEntry) (resource : Bytes) : Bool :=
  match Containment.scan (fun entry => entryContains entry resource) boundary false with
  | none => false
  | some contained => boundary.isEmpty || contained

def scopeAttenuationReason (parentScope childScope : List ScopeBoundaryEntry) :
    AttenuationReason :=
  if !boundaryIsEvaluable parentScope || !boundaryIsEvaluable childScope then .unknownScopeKind
  else
    let attenuates :=
      if childScope.isEmpty then parentScope.isEmpty
      else childScope.all (fun child => (entryClaimedResource child).any (scopeContains parentScope))
    if attenuates then .attenuated else .scopeEscalation

end Utf8

theorem utf8_coding : Coding String.utf8EncodeChar where
  spelled c := String.utf8EncodeChar_ne_nil
  first {c d s t} same := by
    have codes := congrArg (List.map UInt8.toNat) same
    rw [List.map_append, List.map_append, ← utf8Code_toNat, ← utf8Code_toNat] at codes
    have point := (utf8Code_append_inj codes).1
    obtain rfl : c = d := Char.toNat_inj.mp point
    exact ⟨rfl, List.append_cancel_left same⟩

theorem utf16_coding : Coding utf16 where
  spelled c := by
    unfold utf16
    split <;> exact List.cons_ne_nil _ _
  first {c d s t} same := by
    have bytes := congrArg TypeScript.encode same
    rw [TypeScript.encode_utf16, TypeScript.encode_utf16] at bytes
    obtain rfl := (utf8_coding.first bytes).1
    exact ⟨rfl, List.append_cancel_left same⟩

theorem codePoint_coding : Coding (fun c => [CodePoint.ofChar c]) where
  spelled c := List.cons_ne_nil _ _
  first {c d s t} same := by
    obtain ⟨point, rest⟩ := List.cons.inj same
    have value : ∀ c : Char, (CodePoint.ofChar c).val = c.toNat := by
      intro c
      have valid : c.toNat < 0xd800 ∨ 0xdfff < c.toNat ∧ c.toNat < 0x110000 := c.valid
      exact Nat.mod_eq_of_lt (by omega)
    have number := congrArg Fin.val point
    rw [value, value] at number
    exact ⟨Char.toNat_inj.mp number, rest⟩

theorem py_eq (s : String) : py s = s.toList.flatMap (fun c => [CodePoint.ofChar c]) :=
  List.map_eq_flatMap

theorem utf8_inj {s t : String} : utf8 s = utf8 t ↔ s = t :=
  (utf8_coding.flatMap_inj s.toList t.toList).trans String.toList_inj

theorem py_inj {s t : String} : py s = py t ↔ s = t := by
  rw [py_eq, py_eq, codePoint_coding.flatMap_inj, String.toList_inj]

theorem js_inj {s t : String} : js s = js t ↔ s = t :=
  (utf16_coding.flatMap_inj s.toList t.toList).trans String.toList_inj

theorem utf8_reserved {a : Char} (ascii : a.toNat < 0x80) :
    Reserved String.utf8EncodeChar a (UInt8.ofNat a.toNat) where
  unit := by
    have codes := utf8Code_toNat a
    rw [utf8Code_respelling.ascii a.toNat ascii] at codes
    obtain ⟨u, spelled, code⟩ := List.map_eq_singleton_iff.mp codes.symm
    rw [spelled, ← code, UInt8.ofNat_toNat]
  only b member := by
    have code : a.toNat ∈ utf8Code b.toNat := by
      rw [utf8Code_toNat]
      have held := List.mem_map_of_mem (f := UInt8.toNat) member
      rwa [UInt8.toNat_ofNat_of_lt' (Nat.lt_trans ascii (by decide))] at held
    by_cases low : b.toNat < 0x80
    · rw [utf8Code_respelling.ascii b.toNat low, List.mem_singleton] at code
      exact (Char.toNat_inj.mp code).symm
    · obtain ⟨u, us, spelled, first, rest⟩ := utf8Code_respelling.outside b.toNat (by omega)
      rw [spelled, List.mem_cons] at code
      rcases code with rfl | code
      · omega
      · have := rest _ code
        omega

theorem utf16_reserved {a : Char} (ascii : a.toNat < 0x80) :
    Reserved utf16 a (Fin.ofNat 0x10000 a.toNat) where
  unit := by rw [utf16, if_pos (by omega)]
  only b member := by
    have unit : (Fin.ofNat 0x10000 a.toNat).val = a.toNat := Nat.mod_eq_of_lt (by omega)
    have valid : b.toNat < 0xd800 ∨ 0xdfff < b.toNat ∧ b.toNat < 0x110000 := b.valid
    have number := List.mem_map_of_mem (f := Fin.val) member
    rw [unit, utf16] at number
    split at number
    · rename_i basic
      rw [List.map_singleton, List.mem_singleton] at number
      exact (Char.toNat_inj.mp (number.trans (Nat.mod_eq_of_lt basic))).symm
    · rw [List.map_cons, List.map_singleton, List.mem_cons, List.mem_singleton] at number
      simp only [Fin.val_ofNat] at number
      omega

theorem codePoint_reserved (a : Char) :
    Reserved (fun c => [CodePoint.ofChar c]) a (CodePoint.ofChar a) where
  unit := rfl
  only b member := by
    have same := List.mem_singleton.mp member
    exact (codePoint_coding.first (s := []) (t := []) (congrArg (fun p => [p]) same)).1.symm

section Prefixes

variable {γ : Type} [DecidableEq γ] {enc : Char → List γ} {spell : String → List γ}

theorem segmentPrefix_spelled (coding : Coding enc) {units : List γ}
    (reserved : List.Forall₂ (Reserved enc) scopeSeparators units)
    (spelled : ∀ s : String, spell s = s.toList.flatMap enc) (p r : String) :
    Containment.segmentPrefix (units.map ([·])) (spell p) (spell r) = prefixContains p r := by
  rw [spelled, spelled, Containment.segmentPrefix_flatMap coding reserved, ← prefixContains_eq]

end Prefixes

theorem prefixContains_utf8 (p r : String) :
    Utf8.prefixContains (utf8 p) (utf8 r) = prefixContains p r :=
  segmentPrefix_spelled utf8_coding
    (.cons (utf8_reserved (by decide)) (.cons (utf8_reserved (by decide)) .nil)) (fun _ => rfl) p r

theorem prefixContains_py (p r : String) :
    Python.prefixContains (py p) (py r) = prefixContains p r :=
  segmentPrefix_spelled codePoint_coding
    (.cons (codePoint_reserved _) (.cons (codePoint_reserved _) .nil)) py_eq p r

theorem prefixContains_js (p r : String) :
    TypeScript.prefixContains (js p) (js r) = prefixContains p r :=
  segmentPrefix_spelled utf16_coding
    (.cons (utf16_reserved (by decide)) (.cons (utf16_reserved (by decide)) .nil)) (fun _ => rfl) p r

theorem asStr_toPython (j : Json String) : j.toPython.asStr = j.asStr.map py := by
  cases j <;> simp only [Json.toPython] <;> rfl

theorem asStr_toTypeScript (j : Json String) : j.toTypeScript.asStr = j.asStr.map js := by
  cases j <;> simp only [Json.toTypeScript] <;> rfl

theorem entryClaimedResource_utf8 (e : ScopeBoundaryEntry) :
    Utf8.entryClaimedResource e = (entryClaimedResource e).map utf8 := by
  unfold Utf8.entryClaimedResource entryClaimedResource
  simp only [utf8_inj]
  split <;> rfl

theorem entryClaimedResource_toPython (e : ScopeBoundaryEntry) :
    Python.entryClaimedResource e.toPython = (entryClaimedResource e).map py := by
  have dict : e.toPython = .obj [(py "kind", .str (py e.kind)), (py "value", e.value.val.toPython)] := by
    simp only [ScopeBoundaryEntry.toPython, ScopeBoundaryEntry.toJson_eq, Json.toPython,
      Json.toPythonMembers]
  have kind : Python.Dict.get [(py "kind", .str (py e.kind)), (py "value", e.value.val.toPython)]
      "kind" = .str (py e.kind) := rfl
  have value : Python.Dict.get [(py "kind", .str (py e.kind)), (py "value", e.value.val.toPython)]
      "value" = e.value.val.toPython := rfl
  have named : (py e.kind == Python.scopeKindPrefix) = decide (e.kind = scopeKindPrefix) := by
    rw [beq_eq_decide]
    exact decide_eq_decide.mpr py_inj
  rw [dict, Python.entryClaimedResource, kind, value, Python.pyEq_str, named, asStr_toPython,
    entryClaimedResource]
  by_cases h : e.kind = scopeKindPrefix <;> simp [h]

theorem entryClaimedResource_toTypeScript (e : ScopeBoundaryEntry) :
    TypeScript.entryClaimedResource e.toTypeScript = (entryClaimedResource e).map js := by
  have object : e.toTypeScript =
      .obj [(js "kind", .str (js e.kind)), (js "value", e.value.val.toTypeScript)] := by
    simp only [ScopeBoundaryEntry.toTypeScript, ScopeBoundaryEntry.toJson_eq, Json.toTypeScript,
      Json.toTypeScriptMembers]
  have kind : TypeScript.Members.get
      [(js "kind", .str (js e.kind)), (js "value", e.value.val.toTypeScript)] "kind" =
        .str (js e.kind) := rfl
  have value : TypeScript.Members.get
      [(js "kind", .str (js e.kind)), (js "value", e.value.val.toTypeScript)] "value" =
        e.value.val.toTypeScript := rfl
  have named : (js e.kind == TypeScript.scopeKindPrefix) = decide (e.kind = scopeKindPrefix) := by
    rw [beq_eq_decide]
    exact decide_eq_decide.mpr js_inj
  rw [object, TypeScript.entryClaimedResource, kind, value, JsValue.strictEq_str, named,
    asStr_toTypeScript, entryClaimedResource]
  by_cases h : e.kind = scopeKindPrefix <;> simp [h]

theorem claimedResources_utf8 (boundary : List ScopeBoundaryEntry) :
    Containment.regions Utf8.entryClaimedResource boundary =
      (claimedResources boundary).map (List.map utf8) := by
  have mapped := Containment.regions_map (g := id) entryClaimedResource_utf8 boundary
  rwa [List.map_id] at mapped

theorem claimedResources_toPython (boundary : List ScopeBoundaryEntry) :
    Python.claimedResources (boundary.map ScopeBoundaryEntry.toPython) =
      (claimedResources boundary).map (List.map py) :=
  Containment.regions_map entryClaimedResource_toPython boundary

theorem claimedResources_toTypeScript (boundary : List ScopeBoundaryEntry) :
    TypeScript.claimedResources (boundary.map ScopeBoundaryEntry.toTypeScript) =
      (claimedResources boundary).map (List.map js) :=
  Containment.regions_map entryClaimedResource_toTypeScript boundary

theorem reasonOf_map {β γ : Type} {covers : β → β → Bool} {covers' : γ → γ → Bool} {f : β → γ}
    (same : ∀ a b, covers' (f a) (f b) = covers a b) (parents children : Option (List β)) :
    reasonOf covers' (parents.map (List.map f)) (children.map (List.map f)) =
      reasonOf covers parents children := by
  cases parents with
  | none => rfl
  | some ps =>
    cases children with
    | none => rfl
    | some cs => simp only [Option.map_some, reasonOf, Containment.attenuates_map same]

namespace Utf8

theorem entryContains_eq (entry : ScopeBoundaryEntry) (resource : Bytes) :
    entryContains entry resource =
      (entryClaimedResource entry).map (fun p => prefixContains p resource) := by
  unfold entryContains entryClaimedResource
  split
  · cases entry.value.val.asStr <;> rfl
  · rfl

theorem boundaryIsEvaluable_eq (boundary : List ScopeBoundaryEntry) :
    boundaryIsEvaluable boundary =
      (Containment.regions entryClaimedResource boundary).isSome := by
  have reads : entryIsEvaluable = fun e => (entryClaimedResource e).isSome := by
    funext e
    simp [entryIsEvaluable, entryContains_eq]
  rw [boundaryIsEvaluable, reads]
  exact (Containment.regions_isSome boundary).symm

theorem scopeContains_eq (boundary : List ScopeBoundaryEntry) (resource : Bytes) :
    scopeContains boundary resource =
      match Containment.regions entryClaimedResource boundary with
      | none => false
      | some ps => Containment.within prefixContains ps resource := by
  have scanned : Containment.scan (fun entry => entryContains entry resource) boundary false =
      (Containment.regions entryClaimedResource boundary).map
        (fun ps => ps.any (fun p => prefixContains p resource)) :=
    Containment.scan_eq (fun e => entryContains_eq e resource) boundary false
  rw [scopeContains, scanned]
  cases h : Containment.regions entryClaimedResource boundary with
  | none => rfl
  | some ps => simp [Containment.within, Containment.regions_isEmpty h]

theorem scopeAttenuationReason_eq (parentScope childScope : List ScopeBoundaryEntry) :
    scopeAttenuationReason parentScope childScope =
      reasonOf prefixContains (Containment.regions entryClaimedResource parentScope)
        (Containment.regions entryClaimedResource childScope) := by
  simp only [scopeAttenuationReason, boundaryIsEvaluable_eq]
  cases hp : Containment.regions entryClaimedResource parentScope with
  | none => rfl
  | some ps =>
    cases hc : Containment.regions entryClaimedResource childScope with
    | none => rfl
    | some cs =>
      have contains : scopeContains parentScope = Containment.within prefixContains ps := by
        funext r
        rw [scopeContains_eq, hp]
      exact congrArg (fun b : Bool => if b = true then AttenuationReason.attenuated
        else .scopeEscalation) (Containment.claims_attenuate hp hc contains)

end Utf8

theorem scopeContains_utf8 (boundary : List ScopeBoundaryEntry) (resource : String) :
    Utf8.scopeContains boundary (utf8 resource) = scopeContains boundary resource := by
  rw [Utf8.scopeContains_eq, scopeContains_eq, claimedResources_utf8]
  cases claimedResources boundary with
  | none => rfl
  | some ps => exact Containment.within_map prefixContains_utf8 ps resource

theorem scopeContains_toPython (boundary : List ScopeBoundaryEntry) (resource : String) :
    Python.scopeContains (boundary.map ScopeBoundaryEntry.toPython) (py resource) =
      scopeContains boundary resource := by
  rw [Python.scopeContains_eq, scopeContains_eq, claimedResources_toPython]
  cases claimedResources boundary with
  | none => rfl
  | some ps => exact Containment.within_map prefixContains_py ps resource

theorem scopeContains_toTypeScript (boundary : List ScopeBoundaryEntry) (resource : String) :
    TypeScript.scopeContains (boundary.map ScopeBoundaryEntry.toTypeScript) (js resource) =
      scopeContains boundary resource := by
  rw [TypeScript.scopeContains_eq, scopeContains_eq, claimedResources_toTypeScript]
  cases claimedResources boundary with
  | none => rfl
  | some ps => exact Containment.within_map prefixContains_js ps resource

/-- The three implementations answer alike on every boundary and every resource: whether it is
contained, and why one boundary does or does not attenuate another. -/
theorem scope_rules_agree (parent child : List ScopeBoundaryEntry) (resource : String) :
    (Utf8.scopeContains parent (utf8 resource) = scopeContains parent resource ∧
      Python.scopeContains (parent.map ScopeBoundaryEntry.toPython) (py resource) =
        scopeContains parent resource ∧
      TypeScript.scopeContains (parent.map ScopeBoundaryEntry.toTypeScript) (js resource) =
        scopeContains parent resource) ∧
    (Utf8.scopeAttenuationReason parent child = scopeAttenuationReason parent child ∧
      Python.scopeAttenuationReason (.arr (parent.map ScopeBoundaryEntry.toPython))
          (.arr (child.map ScopeBoundaryEntry.toPython)) =
        .ok (scopeAttenuationReason parent child) ∧
      TypeScript.scopeAttenuationReason (.arr (parent.map ScopeBoundaryEntry.toTypeScript))
          (.arr (child.map ScopeBoundaryEntry.toTypeScript)) =
        .ok (scopeAttenuationReason parent child)) := by
  refine ⟨⟨scopeContains_utf8 parent resource, scopeContains_toPython parent resource,
    scopeContains_toTypeScript parent resource⟩, ?_, ?_, ?_⟩
  · rw [Utf8.scopeAttenuationReason_eq, claimedResources_utf8, claimedResources_utf8,
      reasonOf_map prefixContains_utf8, scopeAttenuationReason_eq]
  · rw [Python.scopeAttenuationReason_arr, claimedResources_toPython, claimedResources_toPython,
      reasonOf_map prefixContains_py, scopeAttenuationReason_eq]
  · rw [TypeScript.scopeAttenuationReason_arr, claimedResources_toTypeScript,
      claimedResources_toTypeScript, reasonOf_map prefixContains_js, scopeAttenuationReason_eq]

end VaidSuite
