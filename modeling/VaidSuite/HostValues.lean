import VaidSuite.Lib.Returns
import VaidSuite.ScopeAgreement

/-! The JSON value that a value of a host stands for. The order of the members of an object
does not matter, and strings are Unicode text. Of the numbers only the bytes are covered. -/
namespace VaidSuite

namespace Python

def textOf (s : PyStr) : Option String := (s.mapM CodePoint.toChar?).map String.ofList

theorem toChar?_ofChar (c : Char) : (CodePoint.ofChar c).toChar? = some c := by
  have valid : c.toNat < 0xd800 ∨ 0xdfff < c.toNat ∧ c.toNat < 0x110000 := c.valid
  have value : (CodePoint.ofChar c).val = c.toNat := Nat.mod_eq_of_lt (by omega)
  rw [CodePoint.toChar?, dif_pos (value ▸ c.valid)]
  exact congrArg some (Char.toNat_inj.mp value)

theorem encodable_py (s : String) : Encodable (py s) := by
  intro p member
  obtain ⟨c, _, rfl⟩ := List.mem_map.mp member
  rw [toChar?_ofChar, Option.isSome_some]

theorem ofChar_of_toChar? {p : CodePoint} {c : Char} (h : p.toChar? = some c) :
    CodePoint.ofChar c = p := by
  by_cases valid : p.val.isValidChar
  · rw [CodePoint.toChar?, dif_pos valid] at h
    cases h
    exact Fin.ext (Nat.mod_eq_of_lt p.isLt)
  · rw [CodePoint.toChar?, dif_neg valid] at h
    cases h

theorem textOf_py (s : String) : textOf (py s) = some s := by
  have chars : (py s).mapM CodePoint.toChar? = some s.toList := by
    unfold py
    induction s.toList with
    | nil => rfl
    | cons c cs ih =>
      rw [List.map_cons, List.mapM_cons, toChar?_ofChar, ih]
      rfl
  rw [textOf, chars, Option.map_some, String.ofList_toList]

theorem eq_py {s : PyStr} {t : String} (h : textOf s = some t) : s = py t := by
  obtain ⟨chars, decoded, rfl⟩ := Option.map_eq_some_iff.mp h
  have points := Raising.map_of_mapM decoded
  rw [py, String.toList_ofList]
  clear h decoded
  induction s generalizing chars with
  | nil =>
    cases chars with
    | nil => rfl
    | cons => cases points
  | cons p s ih =>
    cases chars with
    | nil => cases points
    | cons c chars =>
      obtain ⟨point, rest⟩ := List.cons.inj points
      rw [List.map_cons, ofChar_of_toChar? point, ← ih chars rest]

end Python

namespace TypeScript

def charsOf : JsStr → Option (List Char)
  | [] => some []
  | c :: s =>
    if isHighSurrogate c then
      match s with
      | d :: t =>
        if isLowSurrogate d then
          (charsOf t).map (Char.ofNat (0x10000 + (c.val - 0xd800) * 0x400 + (d.val - 0xdc00)) :: ·)
        else none
      | [] => none
    else if isLowSurrogate c then none
    else (charsOf s).map (Char.ofNat c.val :: ·)

def textOf (s : JsStr) : Option String := (charsOf s).map String.ofList

theorem of_charsOf {s : JsStr} {chars : List Char} (h : charsOf s = some chars) :
    s = chars.flatMap utf16 := by
  fun_induction charsOf s generalizing chars with
  | case1 =>
    cases h
    rfl
  | case2 c high d t low ih =>
    obtain ⟨rest, read, rfl⟩ := Option.map_eq_some_iff.mp h
    rw [List.flatMap_cons, utf16_pair high low, ← ih read]
    rfl
  | case3 => cases h
  | case4 => cases h
  | case5 => cases h
  | case6 c s notHigh notLow ih =>
    obtain ⟨rest, read, rfl⟩ := Option.map_eq_some_iff.mp h
    have bounds : c.val < 0xd800 ∨ 0xe000 ≤ c.val := by
      simp only [isHighSurrogate, isLowSurrogate, Bool.and_eq_true, decide_eq_true_eq] at notHigh notLow
      omega
    have valid : c.val.isValidChar := by
      rcases bounds with below | above
      · exact .inl below
      · exact .inr ⟨by omega, by omega⟩
    rw [List.flatMap_cons, ← ih read, utf16, toNat_ofNat valid, if_pos c.isLt, Fin.ofNat_val_eq_self]
    rfl

theorem charsOf_utf16 (c : Char) (s : JsStr) :
    charsOf (utf16 c ++ s) = (charsOf s).map (c :: ·) := by
  have valid : c.toNat < 0xd800 ∨ 0xdfff < c.toNat ∧ c.toNat < 0x110000 := c.valid
  unfold utf16
  split_ifs with basic
  · have unit : (Fin.ofNat 0x10000 c.toNat).val = c.toNat := Nat.mod_eq_of_lt basic
    rw [List.singleton_append, charsOf.eq_def]
    dsimp only
    rw [isHighSurrogate, isLowSurrogate, unit, Char.ofNat_toNat, if_neg (by simp; omega),
      if_neg (by simp; omega)]
  · have high : (Fin.ofNat 0x10000 (0xd800 + (c.toNat - 0x10000) / 0x400)).val =
        0xd800 + (c.toNat - 0x10000) / 0x400 := Nat.mod_eq_of_lt (by omega)
    have low : (Fin.ofNat 0x10000 (0xdc00 + (c.toNat - 0x10000) % 0x400)).val =
        0xdc00 + (c.toNat - 0x10000) % 0x400 := Nat.mod_eq_of_lt (by omega)
    have point : 0x10000 + (0xd800 + (c.toNat - 0x10000) / 0x400 - 0xd800) * 0x400 +
        (0xdc00 + (c.toNat - 0x10000) % 0x400 - 0xdc00) = c.toNat := by omega
    rw [List.cons_append, List.singleton_append, charsOf, isHighSurrogate, isLowSurrogate, high, low,
      point, Char.ofNat_toNat, if_pos (by simp; omega), if_pos (by simp; omega)]

theorem textOf_js (s : String) : textOf (js s) = some s := by
  have chars : charsOf (js s) = some s.toList := by
    unfold js
    induction s.toList with
    | nil => rfl
    | cons c cs ih => rw [List.flatMap_cons, charsOf_utf16, ih, Option.map_some]
  rw [textOf, chars, Option.map_some, String.ofList_toList]

theorem eq_js {s : JsStr} {t : String} (h : textOf s = some t) : s = js t := by
  obtain ⟨chars, decoded, rfl⟩ := Option.map_eq_some_iff.mp h
  rw [js, String.toList_ofList]
  exact of_charsOf decoded

end TypeScript

theorem py_injective : Function.Injective Python.py := fun _ _ => py_inj.mp

theorem js_injective : Function.Injective TypeScript.js := fun _ _ => js_inj.mp

theorem beq_spelled {β : Type} [BEq β] [LawfulBEq β] {spell : String → β}
    (injective : spell.Injective) (s t : String) : (spell s == spell t) = (s == t) := by
  rw [Bool.eq_iff_iff, beq_iff_eq, beq_iff_eq]
  exact injective.eq_iff

namespace Python

mutual

def jsonOf : PyValue → Option (Json String)
  | .null => some .null
  | .bool b => some (.bool b)
  | .num (.int n) => if 0 ≤ n ∧ n < 256 then some (.num (.int n)) else none
  | .num (.float _) => none
  | .str s => (textOf s).map .str
  | .arr items => (jsonOfItems items).map .arr
  | .obj members => do
    let members ← jsonOfMembers members
    if (members.map Prod.fst).Nodup then some (.object members) else none

def jsonOfItems : List PyValue → Option (List (Json String))
  | [] => some []
  | v :: items => do return (← jsonOf v) :: (← jsonOfItems items)

def jsonOfMembers : Dict → Option (List (String × Json String))
  | [] => some []
  | (name, v) :: members => do return (← textOf name, ← jsonOf v) :: (← jsonOfMembers members)

end

end Python

namespace TypeScript

mutual

def jsonOf : JsValue → Option (Json String)
  | .undefined => none
  | .null => some .null
  | .bool b => some (.bool b)
  | .num bits =>
    let n := (Binary64.toByte bits).toNat
    if Binary64.ofNat n = bits then some (.ofNat n) else none
  | .str s => (textOf s).map .str
  | .arr items => (jsonOfItems items).map .arr
  | .obj members => do
    let members ← jsonOfMembers members
    if (members.map Prod.fst).Nodup then some (.object members) else none

def jsonOfItems : List JsValue → Option (List (Json String))
  | [] => some []
  | v :: items => do return (← jsonOf v) :: (← jsonOfItems items)

def jsonOfMembers : Members → Option (List (String × Json String))
  | [] => some []
  | (name, v) :: members => do return (← textOf name, ← jsonOf v) :: (← jsonOfMembers members)

end

end TypeScript

namespace Json

theorem get_object {members : List (String × Json String)}
    (distinct : (members.map Prod.fst).Nodup) (k : String) :
    (object members).get k = members.lookup k := by
  show (SortedMap.ofList members).lookup k = _
  exact SortedMap.lookup_ofList members distinct k

theorem object_set {members : List (String × Json String)}
    (distinct : (members.map Prod.fst).Nodup) (k : String) (j : Json String) :
    ((InsertionMap.set k j members).map Prod.fst).Nodup ∧
      object (InsertionMap.set k j members) = (object members).insert k j := by
  have keys := InsertionMap.nodup_set distinct k j
  refine ⟨keys, congrArg Json.obj (SortedMap.ext (SortedMap.ofList_sorted _)
    (SortedMap.insert_sorted (SortedMap.ofList_sorted _)) (fun k' => ?_))⟩
  rw [SortedMap.lookup_ofList _ keys]
  by_cases same : k' = k
  · rw [same, InsertionMap.lookup_set_self, SortedMap.lookup_insert]
  · rw [InsertionMap.lookup_set_ne same, SortedMap.lookup_insert_ne _ _ same,
      SortedMap.lookup_ofList _ distinct]

end Json

section Members

variable {σ ν : Type} {spell : String → σ} {jsonOf : ν → Option (Json String)}

/-- A host holds these members, in this order, under its own spelling of their names. -/
def Holds (spell : String → σ) (jsonOf : ν → Option (Json String)) (held : List (σ × ν))
    (members : List (String × Json String)) : Prop :=
  List.Forall₂ (fun h m => h.1 = spell m.1 ∧ jsonOf h.2 = some m.2) held members

def HoldsObject (spell : String → σ) (jsonOf : ν → Option (Json String)) (held : List (σ × ν))
    (j : Json String) : Prop :=
  ∃ members, Holds spell jsonOf held members ∧ (members.map Prod.fst).Nodup ∧ j = .object members

variable {held : List (σ × ν)} {j : Json String}

section Lookup

variable [BEq σ] [LawfulBEq σ] (injective : spell.Injective)

include injective

theorem Holds.lookup {members : List (String × Json String)} (h : Holds spell jsonOf held members)
    (k : String) : (held.lookup (spell k)).map jsonOf = (members.lookup k).map some := by
  induction h with
  | nil => rfl
  | @cons e m held members here _ ih =>
    obtain ⟨name, v⟩ := e
    obtain ⟨key, j⟩ := m
    obtain ⟨rfl, stands⟩ := here
    rw [List.lookup_cons, List.lookup_cons]
    by_cases same : k = key
    · subst same
      simpa using stands
    · rw [beq_eq_false_iff_ne.mpr same,
        beq_eq_false_iff_ne.mpr (fun spelled => same (injective spelled))]
      exact ih

theorem HoldsObject.lookup (h : HoldsObject spell jsonOf held j) (k : String) :
    (held.lookup (spell k)).map jsonOf = (j.get k).map some := by
  obtain ⟨members, holds, distinct, rfl⟩ := h
  rw [holds.lookup injective, Json.get_object distinct]

theorem HoldsObject.of_get (h : HoldsObject spell jsonOf held j) {k : String} {value : Json String}
    (found : j.get k = some value) : ∃ v, held.lookup (spell k) = some v ∧ jsonOf v = some value := by
  have same := h.lookup injective k
  rw [found] at same
  exact Option.map_eq_some_iff.mp same

theorem HoldsObject.of_get_none (h : HoldsObject spell jsonOf held j) {k : String}
    (absent : j.get k = none) : held.lookup (spell k) = none := by
  have same := h.lookup injective k
  rw [absent] at same
  exact Option.map_eq_none_iff.mp same

end Lookup

section Set

variable [DecidableEq σ] (injective : spell.Injective)

include injective

theorem Holds.set {members : List (String × Json String)} (h : Holds spell jsonOf held members)
    (k : String) {v : ν} {j : Json String} (stands : jsonOf v = some j) :
    Holds spell jsonOf (InsertionMap.set (spell k) v held) (InsertionMap.set k j members) := by
  induction h with
  | nil => exact .cons ⟨rfl, stands⟩ .nil
  | @cons e m held members here rest ih =>
    obtain ⟨name, w⟩ := e
    obtain ⟨key, i⟩ := m
    obtain ⟨rfl, held_⟩ := here
    rw [InsertionMap.set, InsertionMap.set]
    by_cases same : key = k
    · rw [if_pos same, if_pos (congrArg spell same)]
      exact .cons ⟨rfl, stands⟩ rest
    · rw [if_neg same, if_neg (fun spelled => same (injective spelled))]
      exact .cons ⟨rfl, held_⟩ ih

theorem HoldsObject.insert (h : HoldsObject spell jsonOf held j) (k : String) {v : ν}
    {value : Json String} (stands : jsonOf v = some value) :
    HoldsObject spell jsonOf (InsertionMap.set (spell k) v held) (j.insert k value) := by
  obtain ⟨members, holds, distinct, rfl⟩ := h
  obtain ⟨keys, same⟩ := Json.object_set distinct k value
  exact ⟨_, holds.set injective k stands, keys, same.symm⟩

end Set

end Members

namespace Python

theorem jsonOfItems_eq (items : List PyValue) : jsonOfItems items = items.mapM jsonOf := by
  induction items with
  | nil => rw [jsonOfItems, List.mapM_nil]; rfl
  | cons v items ih => rw [jsonOfItems, List.mapM_cons, ih]

theorem jsonOfMembers_eq (held : Dict) : jsonOfMembers held =
    held.mapM (fun m => do return (← textOf m.1, ← jsonOf m.2)) := by
  induction held with
  | nil => rw [jsonOfMembers, List.mapM_nil]; rfl
  | cons m held ih =>
    obtain ⟨s, v⟩ := m
    rw [jsonOfMembers, List.mapM_cons, ih]
    simp only [bind_assoc, pure_bind]

theorem jsonOfMembers_eq_some_iff {held : Dict} {members : List (String × Json String)} :
    jsonOfMembers held = some members ↔ Holds py jsonOf held members := by
  rw [jsonOfMembers_eq, Raising.mapM_eq_some_iff]
  refine iff_of_eq (congrArg (fun r => List.Forall₂ r held members) ?_)
  funext h m
  refine propext ⟨fun read => ?_, fun ⟨spelled, stands⟩ => ?_⟩
  · obtain ⟨name, named, read⟩ := Option.bind_eq_some_iff.mp read
    obtain ⟨j, stands, made⟩ := Option.bind_eq_some_iff.mp read
    cases made
    exact ⟨eq_py named, stands⟩
  · rw [spelled, textOf_py, stands]
    rfl

theorem jsonOf_obj_iff {held : Dict} {j : Json String} :
    jsonOf (.obj held) = some j ↔ HoldsObject py jsonOf held j := by
  rw [jsonOf]
  constructor
  · intro h
    obtain ⟨members, read, rest⟩ := Option.bind_eq_some_iff.mp h
    split_ifs at rest with distinct
    cases rest
    exact ⟨members, jsonOfMembers_eq_some_iff.mp read, distinct, rfl⟩
  · rintro ⟨members, holds, distinct, rfl⟩
    rw [jsonOfMembers_eq_some_iff.mpr holds]
    exact if_pos distinct

theorem jsonOf_arr_iff {items : List PyValue} {j : Json String} :
    jsonOf (.arr items) = some j ↔
      ∃ js, List.Forall₂ (fun v j => jsonOf v = some j) items js ∧ j = .arr js := by
  rw [jsonOf, Option.map_eq_some_iff, jsonOfItems_eq]
  exact exists_congr (fun js => and_congr Raising.mapM_eq_some_iff eq_comm)

theorem of_jsonOf {v : PyValue} {j : Json String} (stands : jsonOf v = some j) :
    match j with
    | .null => v = .null
    | .bool b => v = .bool b
    | .num (.int n) => v = .num (.int n) ∧ 0 ≤ n ∧ n < 256
    | .num (.float _) => False
    | .str s => v = .str (py s)
    | .arr js => ∃ items, v = .arr items ∧ List.Forall₂ (fun v j => jsonOf v = some j) items js
    | .obj _ => ∃ held, v = .obj held ∧ HoldsObject py jsonOf held j := by
  cases v with
  | null =>
    rw [jsonOf] at stands
    cases stands
    rfl
  | bool b =>
    rw [jsonOf] at stands
    cases stands
    rfl
  | num n =>
    cases n with
    | int n =>
      rw [jsonOf] at stands
      split_ifs at stands with byte
      cases stands
      exact ⟨rfl, byte⟩
    | float bits =>
      rw [jsonOf] at stands
      cases stands
  | str s =>
    rw [jsonOf] at stands
    obtain ⟨t, read, rfl⟩ := Option.map_eq_some_iff.mp stands
    exact congrArg Json.str (eq_py read)
  | arr items =>
    obtain ⟨js, each, rfl⟩ := jsonOf_arr_iff.mp stands
    exact ⟨items, rfl, each⟩
  | obj held =>
    have holds := jsonOf_obj_iff.mp stands
    obtain ⟨members, _, _, rfl⟩ := id holds
    exact ⟨held, rfl, holds⟩

theorem asStr_of_jsonOf {v : PyValue} {j : Json String} (stands : jsonOf v = some j) :
    v.asStr = j.asStr.map py := by
  have shape := of_jsonOf stands
  cases j with
  | null | bool | str =>
    rw [shape]
    rfl
  | num n =>
    cases n with
    | int n =>
      rw [shape.1]
      rfl
    | float bits => exact shape.elim
  | arr js =>
    obtain ⟨items, rfl, -⟩ := shape
    rfl
  | obj members =>
    obtain ⟨held, rfl, -⟩ := shape
    rfl

theorem jsonOf_get {held : Dict} {j : Json String} (h : HoldsObject py jsonOf held j) {k : String}
    {value : Json String} (found : j.get k = some value) : jsonOf (Dict.get held k) = some value := by
  obtain ⟨v, lookup, stands⟩ := h.of_get py_injective found
  rw [Dict.get, lookup]
  exact stands

theorem get_str {held : Dict} {j : Json String} (h : HoldsObject py jsonOf held j) {k s : String}
    (found : j.get k = some (.str s)) : Dict.get held k = .str (py s) :=
  of_jsonOf (jsonOf_get h found)

end Python

namespace TypeScript

theorem jsonOfItems_eq (items : List JsValue) : jsonOfItems items = items.mapM jsonOf := by
  induction items with
  | nil => rw [jsonOfItems, List.mapM_nil]; rfl
  | cons v items ih => rw [jsonOfItems, List.mapM_cons, ih]

theorem jsonOfMembers_eq (held : Members) : jsonOfMembers held =
    held.mapM (fun m => do return (← textOf m.1, ← jsonOf m.2)) := by
  induction held with
  | nil => rw [jsonOfMembers, List.mapM_nil]; rfl
  | cons m held ih =>
    obtain ⟨s, v⟩ := m
    rw [jsonOfMembers, List.mapM_cons, ih]
    simp only [bind_assoc, pure_bind]

theorem jsonOfMembers_eq_some_iff {held : Members} {members : List (String × Json String)} :
    jsonOfMembers held = some members ↔ Holds js jsonOf held members := by
  rw [jsonOfMembers_eq, Raising.mapM_eq_some_iff]
  refine iff_of_eq (congrArg (fun r => List.Forall₂ r held members) ?_)
  funext h m
  refine propext ⟨fun read => ?_, fun ⟨spelled, stands⟩ => ?_⟩
  · obtain ⟨name, named, read⟩ := Option.bind_eq_some_iff.mp read
    obtain ⟨j, stands, made⟩ := Option.bind_eq_some_iff.mp read
    cases made
    exact ⟨eq_js named, stands⟩
  · rw [spelled, textOf_js, stands]
    rfl

theorem jsonOf_obj_iff {held : Members} {j : Json String} :
    jsonOf (.obj held) = some j ↔ HoldsObject js jsonOf held j := by
  rw [jsonOf]
  constructor
  · intro h
    obtain ⟨members, read, rest⟩ := Option.bind_eq_some_iff.mp h
    split_ifs at rest with distinct
    cases rest
    exact ⟨members, jsonOfMembers_eq_some_iff.mp read, distinct, rfl⟩
  · rintro ⟨members, holds, distinct, rfl⟩
    rw [jsonOfMembers_eq_some_iff.mpr holds]
    exact if_pos distinct

theorem jsonOf_arr_iff {items : List JsValue} {j : Json String} :
    jsonOf (.arr items) = some j ↔
      ∃ js, List.Forall₂ (fun v j => jsonOf v = some j) items js ∧ j = .arr js := by
  rw [jsonOf, Option.map_eq_some_iff, jsonOfItems_eq]
  exact exists_congr (fun js => and_congr Raising.mapM_eq_some_iff eq_comm)

theorem of_jsonOf {v : JsValue} {j : Json String} (stands : jsonOf v = some j) :
    match j with
    | .null => v = .null
    | .bool b => v = .bool b
    | .num n => ∃ b : UInt8, n = .int b.toNat ∧ v = .ofNat b.toNat
    | .str s => v = .str (js s)
    | .arr js => ∃ items, v = .arr items ∧ List.Forall₂ (fun v j => jsonOf v = some j) items js
    | .obj _ => ∃ held, v = .obj held ∧ HoldsObject js jsonOf held j := by
  cases v with
  | undefined =>
    rw [jsonOf] at stands
    cases stands
  | null =>
    rw [jsonOf] at stands
    cases stands
    rfl
  | bool b =>
    rw [jsonOf] at stands
    cases stands
    rfl
  | num bits =>
    rw [jsonOf] at stands
    split_ifs at stands with byte
    cases stands
    exact ⟨_, rfl, congrArg JsValue.num byte.symm⟩
  | str s =>
    rw [jsonOf] at stands
    obtain ⟨t, read, rfl⟩ := Option.map_eq_some_iff.mp stands
    exact congrArg JsValue.str (eq_js read)
  | arr items =>
    obtain ⟨js, each, rfl⟩ := jsonOf_arr_iff.mp stands
    exact ⟨items, rfl, each⟩
  | obj held =>
    have holds := jsonOf_obj_iff.mp stands
    obtain ⟨members, _, _, rfl⟩ := id holds
    exact ⟨held, rfl, holds⟩

theorem asStr_of_jsonOf {v : JsValue} {j : Json String} (stands : jsonOf v = some j) :
    v.asStr = j.asStr.map js := by
  have shape := of_jsonOf stands
  cases j with
  | null | bool | str =>
    rw [shape]
    rfl
  | num n =>
    obtain ⟨b, -, rfl⟩ := shape
    rfl
  | arr js =>
    obtain ⟨items, rfl, -⟩ := shape
    rfl
  | obj members =>
    obtain ⟨held, rfl, -⟩ := shape
    rfl

theorem jsonOf_get {held : Members} {j : Json String} (h : HoldsObject js jsonOf held j) {k : String}
    {value : Json String} (found : j.get k = some value) : jsonOf (Members.get held k) = some value := by
  obtain ⟨v, lookup, stands⟩ := h.of_get js_injective found
  rw [Members.get, lookup]
  exact stands

theorem get_str {held : Members} {j : Json String} (h : HoldsObject js jsonOf held j) {k s : String}
    (found : j.get k = some (.str s)) : Members.get held k = .str (js s) :=
  of_jsonOf (jsonOf_get h found)

end TypeScript

end VaidSuite
