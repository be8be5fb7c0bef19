import Mathlib.Data.List.Lex
import VaidSuite.Lib.SortedMap
import VaidSuite.TypeScript.PlainJson

/-! The canonical form of the evidence bundle, and what of a value its text determines. -/
namespace VaidSuite.TypeScript

open JsonText (Text Tree)

mutual

/-- `canonicalJson(value)`: member names sorted by their code units at every depth, and no
white space. -/
def canonicalJson : JsValue → Option Text
  | .arr items =>
    some (JsonText.openBracket :: (joined (canonicalItems items) ++ [JsonText.closeBracket]))
  | .obj members => some (JsonText.openBrace ::
      (joined (((canonicalMembers members).insertionSort (fun m m' => m.1 ≤ m'.1)).map memberText) ++
        [JsonText.closeBrace]))
  | v => stringify v

def canonicalItems : List JsValue → List Text
  | [] => []
  | v :: items => (canonicalJson v).getD [] :: canonicalItems items

/-- The members whose value is not `undefined`. -/
def canonicalMembers : List (JsStr × JsValue) → List (JsStr × Text)
  | [] => []
  | (name, v) :: members =>
    match canonicalJson v with
    | none => canonicalMembers members
    | some t => (name, t) :: canonicalMembers members

end

mutual

/-- Member names sorted at every depth, and `-0` as `0`. Values of one normal form are equal
as JSON values. -/
def JsValue.normal : JsValue → JsValue
  | .num b => .num (if Binary64.isZero b then 0 else b)
  | .arr items => .arr (normalItems items)
  | .obj members => .obj ((normalMembers members).insertionSort (fun m m' => m.1 ≤ m'.1))
  | v => v

def normalItems : List JsValue → List JsValue
  | [] => []
  | v :: items => v.normal :: normalItems items

def normalMembers : List (JsStr × JsValue) → List (JsStr × JsValue)
  | [] => []
  | (name, v) :: members => (name, v.normal) :: normalMembers members

end

mutual

/-- Every number that is not finite as `null`. -/
def JsValue.erased : JsValue → JsValue
  | .num b => if Binary64.isFinite b then .num b else .null
  | .arr items => .arr (erasedItems items)
  | .obj members => .obj (erasedMembers members)
  | v => v

def erasedItems : List JsValue → List JsValue
  | [] => []
  | v :: items => v.erased :: erasedItems items

def erasedMembers : List (JsStr × JsValue) → List (JsStr × JsValue)
  | [] => []
  | (name, v) :: members => (name, v.erased) :: erasedMembers members

end

mutual

/-- The values that are written as `null`, in the order in which they stand. -/
def JsValue.nulls : JsValue → List JsValue
  | .null => [.null]
  | .num b => if Binary64.isFinite b then [] else [.num b]
  | .arr items => nullsOfItems items
  | .obj members => nullsOfMembers members
  | _ => []

def nullsOfItems : List JsValue → List JsValue
  | [] => []
  | v :: items => v.nulls ++ nullsOfItems items

def nullsOfMembers : List (JsStr × JsValue) → List JsValue
  | [] => []
  | (_, v) :: members => v.nulls ++ nullsOfMembers members

end

theorem normalItems_eq (items : List JsValue) : normalItems items = items.map JsValue.normal := by
  induction items with
  | nil => rw [normalItems, List.map_nil]
  | cons v items ih => rw [normalItems, ih, List.map_cons]

theorem normalMembers_eq (members : List (JsStr × JsValue)) :
    normalMembers members = members.map (Prod.map id JsValue.normal) := by
  induction members with
  | nil => rw [normalMembers, List.map_nil]
  | cons m members ih =>
    obtain ⟨name, v⟩ := m
    rw [normalMembers, ih, List.map_cons]
    rfl

theorem erasedItems_eq (items : List JsValue) : erasedItems items = items.map JsValue.erased := by
  induction items with
  | nil => rw [erasedItems, List.map_nil]
  | cons v items ih => rw [erasedItems, ih, List.map_cons]

theorem erasedMembers_eq (members : List (JsStr × JsValue)) :
    erasedMembers members = members.map (Prod.map id JsValue.erased) := by
  induction members with
  | nil => rw [erasedMembers, List.map_nil]
  | cons m members ih =>
    obtain ⟨name, v⟩ := m
    rw [erasedMembers, ih, List.map_cons]
    rfl

mutual

def canonicalTree : JsValue → Tree
  | .undefined | .null => .null
  | .bool b => .bool b
  | .num b => if Binary64.isFinite b then .num (numberText b) else .null
  | .str s => .str (quotedText s)
  | .arr items => .arr (canonicalTrees items)
  | .obj members => .obj (((canonicalMemberTrees members).insertionSort (fun m m' => m.1 ≤ m'.1)).map
      (Prod.map quotedText id))

def canonicalTrees : List JsValue → List Tree
  | [] => []
  | v :: items => canonicalTree v :: canonicalTrees items

def canonicalMemberTrees : List (JsStr × JsValue) → List (JsStr × Tree)
  | [] => []
  | (name, v) :: members => (name, canonicalTree v) :: canonicalMemberTrees members

end

theorem canonicalTrees_eq (items : List JsValue) : canonicalTrees items = items.map canonicalTree := by
  induction items with
  | nil => rw [canonicalTrees, List.map_nil]
  | cons v items ih => rw [canonicalTrees, ih, List.map_cons]

theorem canonicalMemberTrees_eq (members : List (JsStr × JsValue)) :
    canonicalMemberTrees members = members.map (Prod.map id canonicalTree) := by
  induction members with
  | nil => rw [canonicalMemberTrees, List.map_nil]
  | cons m members ih =>
    obtain ⟨name, v⟩ := m
    rw [canonicalMemberTrees, ih, List.map_cons]
    rfl

theorem insertionSort_names {α β : Type} (f : α → β) (members : List (JsStr × α)) :
    (members.map (Prod.map id f)).insertionSort (fun m m' => m.1 ≤ m'.1) =
      (members.insertionSort (fun m m' => m.1 ≤ m'.1)).map (Prod.map id f) :=
  (List.map_insertionSort _ _ (Prod.map id f) members (fun _ _ _ _ => Iff.rfl)).symm

mutual

theorem canonicalJson_eq : ∀ v : JsValue, v.IsJson → canonicalJson v = some (canonicalTree v).text
  | .undefined, h => by
    rw [JsValue.IsJson] at h
    exact h.elim
  | .null, _ | .bool true, _ | .bool false, _ | .str _, _ => rfl
  | .num b, _ => by
    rw [canonicalJson, stringify, canonicalTree]
    · split_ifs <;> rfl
    · intro items same
      cases same
    · intro members same
      cases same
  | .arr items, h => by
    rw [JsValue.IsJson, isJsonItems_iff] at h
    rw [canonicalJson, canonicalTree, Tree.text, ← joined_items, canonicalTrees_eq, List.map_map,
      canonicalItems_eq items h]
    rfl
  | .obj members, h => by
    rw [JsValue.IsJson, isJsonMembers_iff] at h
    rw [canonicalJson, canonicalTree, Tree.text, ← joined_members, canonicalMemberTrees_eq,
      canonicalMembers_eq members h.2, insertionSort_names, insertionSort_names, List.map_map, List.map_map]
    rfl

theorem canonicalItems_eq : ∀ items : List JsValue, (∀ v ∈ items, v.IsJson) →
    canonicalItems items = items.map (fun v => (canonicalTree v).text)
  | [], _ => by rw [canonicalItems, List.map_nil]
  | v :: items, h => by
    rw [List.forall_mem_cons] at h
    rw [canonicalItems, canonicalJson_eq v h.1, canonicalItems_eq items h.2, List.map_cons]
    rfl

theorem canonicalMembers_eq : ∀ members : List (JsStr × JsValue), (∀ m ∈ members, m.2.IsJson) →
    canonicalMembers members = members.map (Prod.map id (fun v => (canonicalTree v).text))
  | [], _ => by rw [canonicalMembers, List.map_nil]
  | (name, v) :: members, h => by
    rw [List.forall_mem_cons] at h
    rw [canonicalMembers, canonicalJson_eq v h.1, canonicalMembers_eq members h.2, List.map_cons]
    rfl

end

mutual

theorem canonicalTree_eq : ∀ v : JsValue, canonicalTree v = plainTree v.normal
  | .undefined | .null | .bool _ | .str _ => rfl
  | .num b => by
    rw [canonicalTree, JsValue.normal, plainTree]
    by_cases zero : Binary64.isZero b = true
    · rw [if_pos zero, if_pos (isFinite_of_isZero zero), numberText, if_pos zero]
      rfl
    · rw [if_neg zero]
  | .arr items => by
    rw [canonicalTree, JsValue.normal, plainTree, canonicalTrees_eq, plainTrees_eq, normalItems_eq,
      List.map_map]
    exact congrArg Tree.arr (List.map_congr_left (canonicalTrees_plain items))
  | .obj members => by
    rw [canonicalTree, JsValue.normal, plainTree, canonicalMemberTrees_eq, plainMembers_eq,
      normalMembers_eq, insertionSort_names, insertionSort_names, List.map_map, List.map_map]
    refine congrArg Tree.obj (List.map_congr_left (fun m member => Prod.ext rfl ?_))
    exact canonicalMemberTrees_plain members m ((List.mem_insertionSort _).mp member)

theorem canonicalTrees_plain : ∀ items : List JsValue,
    ∀ v ∈ items, canonicalTree v = plainTree v.normal
  | [] => by simp
  | v :: items => List.forall_mem_cons.mpr ⟨canonicalTree_eq v, canonicalTrees_plain items⟩

theorem canonicalMemberTrees_plain : ∀ members : List (JsStr × JsValue),
    ∀ m ∈ members, canonicalTree m.2 = plainTree m.2.normal
  | [] => by simp
  | (_, v) :: members =>
    List.forall_mem_cons.mpr ⟨canonicalTree_eq v, canonicalMemberTrees_plain members⟩

end

theorem canonicalTree_wellSpelled (v : JsValue) : (canonicalTree v).WellSpelled := by
  rw [canonicalTree_eq]
  exact (plainTree_wellSpelled v.normal).1

theorem isUnicode_canonicalTree (v : JsValue) : IsUnicode (canonicalTree v).text := by
  rw [canonicalTree_eq]
  exact isUnicode_plainTree v.normal

mutual

/-- The tree of the canonical form is read as the normal form, but for the numbers that no
text shows. -/
theorem ofTree_canonicalTree : ∀ v : JsValue, v.IsJson → ofTree (canonicalTree v) = v.normal.erased
  | .undefined, h => by
    rw [JsValue.IsJson] at h
    exact h.elim
  | .null, _ | .bool _, _ => rfl
  | .str s, _ => by
    rw [canonicalTree, ofTree, stringOf_quotedText]
    rfl
  | .num b, _ => by
    rw [canonicalTree, JsValue.normal, JsValue.erased]
    by_cases finite : Binary64.isFinite b = true
    · rw [if_pos finite, ofTree, numberOf_numberText finite]
      split_ifs with zero finite'
      · rfl
      · exact absurd rfl finite'
      · rfl
    · have other : ¬ Binary64.isZero b = true := fun zero => finite (isFinite_of_isZero zero)
      rw [if_neg finite, if_neg other, if_neg finite]
      rfl
  | .arr items, h => by
    rw [JsValue.IsJson, isJsonItems_iff] at h
    rw [canonicalTree, ofTree, JsValue.normal, JsValue.erased, ofItems_eq, canonicalTrees_eq, List.map_map,
      erasedItems_eq, normalItems_eq, List.map_map]
    exact congrArg JsValue.arr (List.map_congr_left (ofTree_canonicalTrees items h))
  | .obj members, h => by
    rw [JsValue.IsJson, isJsonMembers_iff] at h
    have distinct : ((members.insertionSort (fun m m' => m.1 ≤ m'.1)).map Prod.fst).Nodup :=
      ((List.perm_insertionSort _ members).map Prod.fst).nodup_iff.mpr h.1
    rw [canonicalTree, ofTree, JsValue.normal, JsValue.erased, ofMembers_eq, canonicalMemberTrees_eq,
      insertionSort_names, List.map_map, erasedMembers_eq, normalMembers_eq, insertionSort_names, List.map_map]
    rw [InsertionMap.ofList_of_nodup (by
      rw [List.map_map]
      refine (List.map_congr_left (fun m _ => ?_)) ▸ distinct
      exact (stringOf_quotedText m.1).symm)]
    rw [List.map_map, List.map_map]
    refine congrArg JsValue.obj (List.map_congr_left (fun m member => ?_))
    exact Prod.ext (stringOf_quotedText m.1)
      (ofTree_canonicalMemberTrees members h.2 m ((List.mem_insertionSort _).mp member))

theorem ofTree_canonicalTrees : ∀ items : List JsValue, (∀ v ∈ items, v.IsJson) →
    ∀ v ∈ items, ofTree (canonicalTree v) = v.normal.erased
  | [], _ => by simp
  | v :: items, h => by
    rw [List.forall_mem_cons] at h ⊢
    exact ⟨ofTree_canonicalTree v h.1, ofTree_canonicalTrees items h.2⟩

theorem ofTree_canonicalMemberTrees : ∀ members : List (JsStr × JsValue), (∀ m ∈ members, m.2.IsJson) →
    ∀ m ∈ members, ofTree (canonicalTree m.2) = m.2.normal.erased
  | [], _ => by simp
  | (_, v) :: members, h => by
    rw [List.forall_mem_cons] at h ⊢
    exact ⟨ofTree_canonicalTree v h.1, ofTree_canonicalMemberTrees members h.2⟩

end

mutual

theorem length_nulls : ∀ v : JsValue, v.erased.nulls.length = v.nulls.length
  | .undefined | .null | .bool _ | .str _ => rfl
  | .num b => by
    rw [JsValue.erased, JsValue.nulls]
    split_ifs with finite
    · rw [JsValue.nulls, if_pos finite]
    · rfl
  | .arr items => by
    rw [JsValue.erased, JsValue.nulls, JsValue.nulls]
    exact length_nullsOfItems items
  | .obj members => by
    rw [JsValue.erased, JsValue.nulls, JsValue.nulls]
    exact length_nullsOfMembers members

theorem length_nullsOfItems : ∀ items : List JsValue,
    (nullsOfItems (erasedItems items)).length = (nullsOfItems items).length
  | [] => by rw [erasedItems]
  | v :: items => by
    rw [erasedItems, nullsOfItems, nullsOfItems, List.length_append, List.length_append, length_nulls v,
      length_nullsOfItems items]

theorem length_nullsOfMembers : ∀ members : List (JsStr × JsValue),
    (nullsOfMembers (erasedMembers members)).length = (nullsOfMembers members).length
  | [] => by rw [erasedMembers]
  | (_, v) :: members => by
    rw [erasedMembers, nullsOfMembers, nullsOfMembers, List.length_append, List.length_append,
      length_nulls v, length_nullsOfMembers members]

end

theorem erased_num (b : Binary64.Bits) :
    (JsValue.num b).erased = .num b ∨ (JsValue.num b).erased = .null := by
  rw [JsValue.erased]
  split_ifs
  · exact .inl rfl
  · exact .inr rfl

mutual

theorem eq_of_erased : ∀ v w : JsValue, v.erased = w.erased → v.nulls = w.nulls → v = w
  | .arr items, w, same, nulls => by
    cases w with
    | arr items' =>
      rw [JsValue.erased, JsValue.erased, JsValue.arr.injEq] at same
      rw [JsValue.nulls, JsValue.nulls] at nulls
      rw [items_eq_of_erased items items' same nulls]
    | num b =>
      rw [JsValue.erased, JsValue.erased] at same
      split_ifs at same
    | _ => simp [JsValue.erased] at same
  | .obj members, w, same, nulls => by
    cases w with
    | obj members' =>
      rw [JsValue.erased, JsValue.erased, JsValue.obj.injEq] at same
      rw [JsValue.nulls, JsValue.nulls] at nulls
      rw [members_eq_of_erased members members' same nulls]
    | num b =>
      rw [JsValue.erased, JsValue.erased] at same
      split_ifs at same
    | _ => simp [JsValue.erased] at same
  | .num b, w, same, nulls => by
    cases w with
    | num b' =>
      rw [JsValue.erased, JsValue.erased] at same
      rw [JsValue.nulls, JsValue.nulls] at nulls
      split_ifs at same nulls with finite finite' finite'
      · exact same
      · exact List.singleton_inj.mp nulls
    | null =>
      rw [JsValue.nulls, JsValue.nulls] at nulls
      split_ifs at nulls with finite
      cases List.singleton_inj.mp nulls
    | _ =>
      rw [JsValue.erased] at same
      split_ifs at same <;> simp [JsValue.erased] at same
  | .null, w, same, nulls => by
    cases w with
    | null => rfl
    | num b =>
      rw [JsValue.nulls, JsValue.nulls] at nulls
      split_ifs at nulls with finite
      cases List.singleton_inj.mp nulls
    | _ => simp [JsValue.erased] at same
  | .undefined, w, same, _ => by
    cases w with
    | undefined => rfl
    | num b' => rcases erased_num b' with h | h <;> rw [h] at same <;> simp [JsValue.erased] at same
    | _ => simp [JsValue.erased] at same
  | .bool b, w, same, _ => by
    cases w with
    | bool b' => simpa [JsValue.erased] using same
    | num b' => rcases erased_num b' with h | h <;> rw [h] at same <;> simp [JsValue.erased] at same
    | _ => simp [JsValue.erased] at same
  | .str s, w, same, _ => by
    cases w with
    | str s' => simpa [JsValue.erased] using same
    | num b' => rcases erased_num b' with h | h <;> rw [h] at same <;> simp [JsValue.erased] at same
    | _ => simp [JsValue.erased] at same

theorem items_eq_of_erased : ∀ items items' : List JsValue, erasedItems items = erasedItems items' →
    nullsOfItems items = nullsOfItems items' → items = items'
  | [], [], _, _ => rfl
  | [], _ :: _, same, _ | _ :: _, [], same, _ => by simp [erasedItems] at same
  | v :: items, w :: items', same, nulls => by
    rw [erasedItems, erasedItems, List.cons.injEq] at same
    rw [nullsOfItems, nullsOfItems] at nulls
    have lengths : v.nulls.length = w.nulls.length := by
      rw [← length_nulls v, ← length_nulls w, same.1]
    obtain ⟨first, others⟩ := List.append_inj nulls lengths
    rw [eq_of_erased v w same.1 first, items_eq_of_erased items items' same.2 others]

theorem members_eq_of_erased : ∀ members members' : List (JsStr × JsValue),
    erasedMembers members = erasedMembers members' → nullsOfMembers members = nullsOfMembers members' →
      members = members'
  | [], [], _, _ => rfl
  | [], _ :: _, same, _ | _ :: _, [], same, _ => by simp [erasedMembers] at same
  | (name, v) :: members, (name', w) :: members', same, nulls => by
    rw [erasedMembers, erasedMembers, List.cons.injEq, Prod.mk.injEq] at same
    rw [nullsOfMembers, nullsOfMembers] at nulls
    have lengths : v.nulls.length = w.nulls.length := by
      rw [← length_nulls v, ← length_nulls w, same.1.2]
    obtain ⟨first, others⟩ := List.append_inj nulls lengths
    rw [same.1.1, eq_of_erased v w same.1.2 first, members_eq_of_erased members members' same.2 others]

end

theorem normal_of_canonicalJson {v w : JsValue} (hv : v.IsJson) (hw : w.IsJson)
    (same : canonicalJson v = canonicalJson w) :
    v.normal = w.normal ↔ v.normal.nulls = w.normal.nulls := by
  rw [canonicalJson_eq v hv, canonicalJson_eq w hw, Option.some.injEq] at same
  have trees := JsonText.text_injective (canonicalTree_wellSpelled v) (canonicalTree_wellSpelled w) same
  refine ⟨fun equal => by rw [equal], fun nulls => eq_of_erased _ _ ?_ nulls⟩
  rw [← ofTree_canonicalTree v hv, ← ofTree_canonicalTree w hw, trees]

/-! ### What `JSON.stringify` tells -/

theorem normal_obj_iff {m m' : Members} (distinct : (m.map Prod.fst).Nodup)
    (distinct' : (m'.map Prod.fst).Nodup) : (JsValue.obj m).normal = (JsValue.obj m').normal ↔
      ∀ k, (m.lookup k).map JsValue.normal = (m'.lookup k).map JsValue.normal := by
  have names : ∀ m : Members, (m.map Prod.fst).Nodup →
      ((m.map (Prod.map id JsValue.normal)).map Prod.fst).Nodup := by
    intro m distinct
    rw [List.map_map]
    exact distinct
  have sorted : ∀ {m : Members}, (m.map Prod.fst).Nodup → ∀ k,
      ((m.map (Prod.map id JsValue.normal)).insertionSort (fun e e' => e.1 ≤ e'.1)).lookup k =
        (m.lookup k).map JsValue.normal := by
    intro m distinct k
    have perm := List.perm_insertionSort (fun e e' : JsStr × JsValue => e.1 ≤ e'.1)
      (m.map (Prod.map id JsValue.normal))
    rw [← SortedMap.lookup_perm perm.symm (names m distinct), InsertionMap.lookup_map]
  rw [JsValue.normal, JsValue.normal, JsValue.obj.injEq, normalMembers_eq, normalMembers_eq]
  constructor
  · intro same k
    rw [← sorted distinct k, ← sorted distinct' k, same]
  · intro same
    refine SortedMap.ext (SortedMap.sorted_insertionSort (names m distinct))
      (SortedMap.sorted_insertionSort (names m' distinct')) (fun k => ?_)
    exact (sorted distinct k).trans ((same k).trans (sorted distinct' k).symm)

mutual

theorem normal_written : ∀ v : JsValue, v.written.normal = v.normal.erased
  | .undefined | .null | .bool _ | .str _ => rfl
  | .num b => by
    rw [JsValue.written, JsValue.normal, JsValue.erased]
    by_cases zero : Binary64.isZero b = true
    · rw [if_pos zero, if_pos (isFinite_of_isZero zero)]
      rfl
    · rw [if_neg zero]
      by_cases finite : Binary64.isFinite b = true
      · rw [if_pos finite, JsValue.normal, if_neg zero]
      · rw [if_neg finite]
        rfl
  | .arr items => by
    rw [JsValue.written, JsValue.normal, JsValue.normal, JsValue.erased, normalItems_eq, writtenItems_eq,
      erasedItems_eq, normalItems_eq, List.map_map, List.map_map]
    exact congrArg JsValue.arr (List.map_congr_left (normal_writtenItems items))
  | .obj members => by
    rw [JsValue.written, JsValue.normal, JsValue.normal, JsValue.erased, normalMembers_eq, writtenMembers_eq,
      erasedMembers_eq, normalMembers_eq, ← insertionSort_names, List.map_map, List.map_map]
    have each : members.map (Prod.map id JsValue.normal ∘ Prod.map id JsValue.written) =
        members.map (Prod.map id JsValue.erased ∘ Prod.map id JsValue.normal) :=
      List.map_congr_left (fun m member => Prod.ext rfl (normal_writtenMembers members m member))
    rw [each]

theorem normal_writtenItems : ∀ items : List JsValue, ∀ v ∈ items, v.written.normal = v.normal.erased
  | [] => by simp
  | v :: items => List.forall_mem_cons.mpr ⟨normal_written v, normal_writtenItems items⟩

theorem normal_writtenMembers : ∀ members : List (JsStr × JsValue),
    ∀ m ∈ members, m.2.written.normal = m.2.normal.erased
  | [] => by simp
  | (_, v) :: members => List.forall_mem_cons.mpr ⟨normal_written v, normal_writtenMembers members⟩

end

mutual

theorem normal_ordered : ∀ v : JsValue, v.IsJson → v.ordered.normal = v.normal
  | .undefined, _ | .null, _ | .bool _, _ | .num _, _ | .str _, _ => rfl
  | .arr items, h => by
    rw [JsValue.IsJson, isJsonItems_iff] at h
    rw [JsValue.ordered, JsValue.normal, JsValue.normal, normalItems_eq, orderedItems_eq, normalItems_eq,
      List.map_map]
    exact congrArg JsValue.arr (List.map_congr_left (normal_orderedItems items h))
  | .obj members, h => by
    rw [JsValue.IsJson, isJsonMembers_iff] at h
    have names : ((orderedMembers members).map Prod.fst).Nodup := by
      rw [orderedMembers_eq, List.map_map]
      exact h.1
    have order := ownOrder_perm (orderedMembers members)
    rw [JsValue.ordered, normal_obj_iff ((order.map Prod.fst).nodup_iff.mpr names) h.1]
    intro k
    rw [← SortedMap.lookup_perm order.symm names, orderedMembers_eq, InsertionMap.lookup_map, Option.map_map]
    refine Option.map_congr (fun v held => ?_)
    exact normal_orderedMembers members h.2 _ (InsertionMap.mem_of_lookup held)

theorem normal_orderedItems : ∀ items : List JsValue, (∀ v ∈ items, v.IsJson) →
    ∀ v ∈ items, v.ordered.normal = v.normal
  | [], _ => by simp
  | v :: items, h => by
    rw [List.forall_mem_cons] at h ⊢
    exact ⟨normal_ordered v h.1, normal_orderedItems items h.2⟩

theorem normal_orderedMembers : ∀ members : List (JsStr × JsValue), (∀ m ∈ members, m.2.IsJson) →
    ∀ m ∈ members, m.2.ordered.normal = m.2.normal
  | [], _ => by simp
  | (_, v) :: members, h => by
    rw [List.forall_mem_cons] at h ⊢
    exact ⟨normal_ordered v h.1, normal_orderedMembers members h.2⟩

end

theorem erased_of_stringify {v w : JsValue} (hv : v.IsJson) (hw : w.IsJson)
    (same : stringify v = stringify w) : v.normal.erased = w.normal.erased := by
  rw [stringify_eq v hv, stringify_eq w hw, Option.some.injEq] at same
  have trees := JsonText.text_injective (plainTree_wellSpelled _).1 (plainTree_wellSpelled _).1 same
  have values : v.ordered.written = w.ordered.written := by
    rw [← ofTree_plainTree _ (isJson_ordered v hv), ← ofTree_plainTree _ (isJson_ordered w hw), trees]
  rw [← normal_ordered v hv, ← normal_ordered w hw, ← normal_written, ← normal_written, values]

theorem normal_of_stringify {v w : JsValue} (hv : v.IsJson) (hw : w.IsJson)
    (same : stringify v = stringify w) : v.normal = w.normal ↔ v.normal.nulls = w.normal.nulls :=
  ⟨fun equal => by rw [equal], eq_of_erased _ _ (erased_of_stringify hv hw same)⟩

end VaidSuite.TypeScript
