import VaidSuite.Lib.Returns
import VaidSuite.TypeScript.CanonicalJson

/-! The canonicalizer of the suite: what it refuses, and what of a value its bytes determine. -/
namespace VaidSuite.TypeScript

open JsonText (Text Tree)
open Raising (Returns)

/-- A value that cannot be canonicalized. -/
inductive JcsError where
  | nonFiniteNumber (b : Binary64.Bits)
  | undefinedElement (i : Nat)
  | undefinedValue
deriving DecidableEq

def JcsError.message : JcsError → JsStr
  | .nonFiniteNumber b => js "cannot canonicalize a non-finite number: " ++
      js (if Binary64.isNaN b then "NaN" else if Binary64.negative b then "-Infinity" else "Infinity")
  | .undefinedElement i =>
    js "array element " ++ unitsOf (JsonText.natText i) ++ js " is undefined — refusing to coerce it to null"
  | .undefinedValue => js "cannot canonicalize a value of type undefined"

def JsValue.isUndefined : JsValue → Bool
  | .undefined => true
  | _ => false

mutual

/-- The pieces that `serialize` pushes, joined. An object is written in the order of its names'
code units, without the members whose value is `undefined`. -/
def serialize : JsValue → Except JcsError Text
  | .undefined => .error .undefinedValue
  | .null => .ok (JsonText.codes "null")
  | .bool b => .ok (JsonText.codes (if b then "true" else "false"))
  | .num b => if Binary64.isFinite b then .ok (numberText b) else .error (.nonFiniteNumber b)
  | .str s => .ok (stringText s)
  | .arr items => do
    let texts ← (serializeItems 0 items).mapM id
    return JsonText.openBracket :: (joined texts ++ [JsonText.closeBracket])
  | .obj members => do
    let texts ← ((serializeMembers members).insertionSort (fun m m' => m.1 ≤ m'.1)).mapM (fun m => do
      return memberText (m.1, ← m.2))
    return JsonText.openBrace :: (joined texts ++ [JsonText.closeBrace])

def serializeItems : Nat → List JsValue → List (Except JcsError Text)
  | _, [] => []
  | i, v :: items =>
    (if v.isUndefined then .error (.undefinedElement i) else serialize v) :: serializeItems (i + 1) items

def serializeMembers : List (JsStr × JsValue) → List (JsStr × Except JcsError Text)
  | [] => []
  | (name, v) :: members =>
    if v.isUndefined then serializeMembers members else (name, serialize v) :: serializeMembers members

end

def canonicalizeToString (value : JsValue) : Except JcsError JsStr := do
  return unitsOf (← serialize value)

def canonicalize (value : JsValue) : Except JcsError Bytes := do
  return encode (← canonicalizeToString value)

mutual

/-- No two members of one name, at any depth. -/
def JsValue.Distinct : JsValue → Prop
  | .arr items => DistinctItems items
  | .obj members => (members.map Prod.fst).Nodup ∧ DistinctMembers members
  | .undefined | .null | .bool _ | .num _ | .str _ => True

def DistinctItems : List JsValue → Prop
  | [] => True
  | v :: items => v.Distinct ∧ DistinctItems items

def DistinctMembers : List (JsStr × JsValue) → Prop
  | [] => True
  | (_, v) :: members => v.Distinct ∧ DistinctMembers members

end

mutual

/-- Finite numbers only, and `undefined` as the value of members only. -/
def JsValue.IsCanonicalizable : JsValue → Prop
  | .undefined => False
  | .num b => Binary64.isFinite b = true
  | .arr items => CanonicalizableItems items
  | .obj members => CanonicalizableMembers members
  | .null | .bool _ | .str _ => True

def CanonicalizableItems : List JsValue → Prop
  | [] => True
  | v :: items => v.IsCanonicalizable ∧ CanonicalizableItems items

def CanonicalizableMembers : List (JsStr × JsValue) → Prop
  | [] => True
  | (_, v) :: members => (v.isUndefined = true ∨ v.IsCanonicalizable) ∧ CanonicalizableMembers members

end

mutual

/-- Without the members whose value is `undefined`. -/
def JsValue.pruned : JsValue → JsValue
  | .arr items => .arr (prunedItems items)
  | .obj members => .obj (prunedMembers members)
  | v => v

def prunedItems : List JsValue → List JsValue
  | [] => []
  | v :: items => v.pruned :: prunedItems items

def prunedMembers : List (JsStr × JsValue) → List (JsStr × JsValue)
  | [] => []
  | (name, v) :: members =>
    if v.isUndefined then prunedMembers members else (name, v.pruned) :: prunedMembers members

end

theorem serializeMembers_eq (members : List (JsStr × JsValue)) : serializeMembers members =
    (members.filter (fun m => !m.2.isUndefined)).map (Prod.map id serialize) := by
  induction members with
  | nil => rw [serializeMembers, List.filter_nil, List.map_nil]
  | cons m members ih =>
    obtain ⟨name, v⟩ := m
    rw [serializeMembers, List.filter_cons, ih]
    cases v.isUndefined <;> rfl

theorem prunedItems_eq (items : List JsValue) : prunedItems items = items.map JsValue.pruned := by
  induction items with
  | nil => rw [prunedItems, List.map_nil]
  | cons v items ih => rw [prunedItems, ih, List.map_cons]

theorem prunedMembers_eq (members : List (JsStr × JsValue)) : prunedMembers members =
    (members.filter (fun m => !m.2.isUndefined)).map (Prod.map id JsValue.pruned) := by
  induction members with
  | nil => rw [prunedMembers, List.filter_nil, List.map_nil]
  | cons m members ih =>
    obtain ⟨name, v⟩ := m
    rw [prunedMembers, List.filter_cons, ih]
    cases v.isUndefined <;> rfl

theorem canonicalizableItems_iff (items : List JsValue) :
    CanonicalizableItems items ↔ ∀ v ∈ items, v.IsCanonicalizable := by
  induction items with
  | nil => simp [CanonicalizableItems]
  | cons v items ih => rw [CanonicalizableItems, ih, List.forall_mem_cons]

theorem canonicalizableMembers_iff (members : List (JsStr × JsValue)) : CanonicalizableMembers members ↔
    ∀ m ∈ members.filter (fun m => !m.2.isUndefined), m.2.IsCanonicalizable := by
  induction members with
  | nil => simp [CanonicalizableMembers]
  | cons m members ih =>
    obtain ⟨name, v⟩ := m
    rw [CanonicalizableMembers, ih, List.filter_cons]
    cases v.isUndefined <;> simp

theorem distinctItems_iff (items : List JsValue) : DistinctItems items ↔ ∀ v ∈ items, v.Distinct := by
  induction items with
  | nil => simp [DistinctItems]
  | cons v items ih => rw [DistinctItems, ih, List.forall_mem_cons]

theorem distinctMembers_iff (members : List (JsStr × JsValue)) :
    DistinctMembers members ↔ ∀ m ∈ members, m.2.Distinct := by
  induction members with
  | nil => simp [DistinctMembers]
  | cons m members ih =>
    obtain ⟨name, v⟩ := m
    rw [DistinctMembers, ih, List.forall_mem_cons]

theorem not_isUndefined {v : JsValue} (h : v.IsCanonicalizable) : v.isUndefined = false := by
  cases v with
  | undefined => exact h.elim
  | _ => rfl

theorem serializeItems_eq (texts : JsValue → Text) {items : List JsValue}
    (each : ∀ v ∈ items, v.isUndefined = false ∧ serialize v = .ok (texts v)) (i : Nat) :
    serializeItems i items = items.map (fun v => .ok (texts v)) := by
  induction items generalizing i with
  | nil => rw [serializeItems, List.map_nil]
  | cons v items ih =>
    rw [List.forall_mem_cons] at each
    rw [serializeItems, each.1.1, ih each.2, each.1.2, List.map_cons]
    rfl

mutual

theorem serialize_eq : ∀ v : JsValue, v.IsCanonicalizable →
    serialize v = .ok (canonicalTree v.pruned).text
  | .undefined, h => h.elim
  | .null, _ | .bool true, _ | .bool false, _ | .str _, _ => rfl
  | .num b, h => by
    rw [JsValue.IsCanonicalizable] at h
    rw [serialize, if_pos h, JsValue.pruned, canonicalTree, if_pos h]
    · rfl
    · rintro items ⟨⟩
    · rintro members ⟨⟩
  | .arr items, h => by
    rw [JsValue.IsCanonicalizable, canonicalizableItems_iff] at h
    have written : (serializeItems 0 items).mapM id =
        .ok (items.map (fun v => (canonicalTree v.pruned).text)) := by
      rw [serializeItems_eq (fun v => (canonicalTree v.pruned).text)
        (fun v member => ⟨not_isUndefined (h v member), serializeItems_written items h v member⟩),
        List.mapM_map]
      exact Raising.mapM_ok (fun _ _ => rfl)
    rw [serialize, written, JsValue.pruned, prunedItems_eq, canonicalTree, Tree.text, ← joined_items,
      canonicalTrees_eq, List.map_map, List.map_map]
    rfl
  | .obj members, h => by
    rw [JsValue.IsCanonicalizable, canonicalizableMembers_iff] at h
    let kept := members.filter (fun m => !m.2.isUndefined)
    have written : ((serializeMembers members).insertionSort (fun m m' => m.1 ≤ m'.1)).mapM
        (fun m => do return memberText (m.1, ← m.2)) =
        .ok ((kept.insertionSort (fun m m' => m.1 ≤ m'.1)).map
          (fun m => memberText (m.1, (canonicalTree m.2.pruned).text))) := by
      rw [serializeMembers_eq, insertionSort_names, List.mapM_map]
      refine Raising.mapM_ok (fun m member => ?_)
      have inside := (List.mem_insertionSort _).mp member
      have here := serializeMembers_written members m (List.mem_of_mem_filter inside) (h m inside)
      show (do return memberText (m.1, ← serialize m.2)) = _
      rw [here]
      rfl
    have composed : Prod.map id canonicalTree ∘ Prod.map id JsValue.pruned =
        (Prod.map id (fun v => canonicalTree v.pruned) : JsStr × JsValue → JsStr × Tree) := rfl
    rw [serialize, written, JsValue.pruned, prunedMembers_eq, canonicalTree, Tree.text,
      canonicalMemberTrees_eq, List.map_map, composed, insertionSort_names, ← joined_members, List.map_map]
    rfl

theorem serializeItems_written : ∀ items : List JsValue, (∀ v ∈ items, v.IsCanonicalizable) →
    ∀ v ∈ items, serialize v = .ok (canonicalTree v.pruned).text
  | [], _ => by simp
  | v :: items, h => by
    rw [List.forall_mem_cons] at h
    exact List.forall_mem_cons.mpr ⟨serialize_eq v h.1, serializeItems_written items h.2⟩

theorem serializeMembers_written : ∀ members : List (JsStr × JsValue),
    ∀ m ∈ members, m.2.IsCanonicalizable → serialize m.2 = .ok (canonicalTree m.2.pruned).text
  | [] => by simp
  | (_, v) :: members =>
    List.forall_mem_cons.mpr ⟨serialize_eq v, serializeMembers_written members⟩

end

theorem of_returns_serializeItems {items : List JsValue} {i : Nat}
    (each : ∀ r ∈ serializeItems i items, Returns r) :
    ∀ v ∈ items, v.isUndefined = false ∧ Returns (serialize v) := by
  induction items generalizing i with
  | nil => simp
  | cons v items ih =>
    rw [serializeItems, List.forall_mem_cons] at each
    refine List.forall_mem_cons.mpr ⟨?_, ih each.2⟩
    cases defined : v.isUndefined with
    | true => exact absurd (if_pos defined ▸ each.1) (Raising.not_returns_error _)
    | false => exact ⟨rfl, by simpa [defined] using each.1⟩

mutual

theorem canonicalizable_of_returns : ∀ v : JsValue, Returns (serialize v) → v.IsCanonicalizable
  | .undefined, h => absurd h (Raising.not_returns_error _)
  | .null, _ | .bool _, _ | .str _, _ => trivial
  | .num b, h => by
    rw [serialize] at h
    by_contra infinite
    rw [JsValue.IsCanonicalizable] at infinite
    rw [if_neg infinite] at h
    exact Raising.not_returns_error _ h
  | .arr items, h => by
    rw [serialize, Raising.returns_bind_pure, Raising.returns_mapM_iff] at h
    rw [JsValue.IsCanonicalizable, canonicalizableItems_iff]
    intro v member
    exact canonicalizable_items items v member (of_returns_serializeItems h v member).2
  | .obj members, h => by
    rw [serialize, Raising.returns_bind_pure, Raising.returns_mapM_iff, serializeMembers_eq] at h
    rw [JsValue.IsCanonicalizable, canonicalizableMembers_iff]
    intro m member
    have written := h (Prod.map id serialize m)
      ((List.mem_insertionSort _).mpr (List.mem_map_of_mem member))
    exact canonicalizable_members members m (List.mem_of_mem_filter member)
      (Raising.returns_bind_pure.mp written)

theorem canonicalizable_items : ∀ items : List JsValue,
    ∀ v ∈ items, Returns (serialize v) → v.IsCanonicalizable
  | [] => by simp
  | v :: items => List.forall_mem_cons.mpr ⟨canonicalizable_of_returns v, canonicalizable_items items⟩

theorem canonicalizable_members : ∀ members : List (JsStr × JsValue),
    ∀ m ∈ members, Returns (serialize m.2) → m.2.IsCanonicalizable
  | [] => by simp
  | (_, v) :: members =>
    List.forall_mem_cons.mpr ⟨canonicalizable_of_returns v, canonicalizable_members members⟩

end

theorem returns_serialize (v : JsValue) : Returns (serialize v) ↔ v.IsCanonicalizable :=
  ⟨canonicalizable_of_returns v, fun h => ⟨_, serialize_eq v h⟩⟩

mutual

theorem isJson_pruned : ∀ v : JsValue, v.Distinct → v.IsCanonicalizable → v.pruned.IsJson
  | .undefined, _, h => h.elim
  | .null, _, _ | .bool _, _, _ | .num _, _, _ | .str _, _, _ => trivial
  | .arr items, distinct, h => by
    rw [JsValue.Distinct, distinctItems_iff] at distinct
    rw [JsValue.IsCanonicalizable, canonicalizableItems_iff] at h
    rw [JsValue.pruned, JsValue.IsJson, prunedItems_eq, isJsonItems_iff, List.forall_mem_map]
    exact fun v member => isJson_prunedItems items v member (distinct v member) (h v member)
  | .obj members, distinct, h => by
    rw [JsValue.Distinct, distinctMembers_iff] at distinct
    rw [JsValue.IsCanonicalizable, canonicalizableMembers_iff] at h
    rw [JsValue.pruned, JsValue.IsJson, prunedMembers_eq, isJsonMembers_iff, List.forall_mem_map,
      List.map_map]
    constructor
    · exact distinct.1.sublist (List.filter_sublist.map _)
    · intro m member
      have inside := List.mem_of_mem_filter member
      exact isJson_prunedMembers members m inside (distinct.2 m inside) (h m member)

theorem isJson_prunedItems : ∀ items : List JsValue,
    ∀ v ∈ items, v.Distinct → v.IsCanonicalizable → v.pruned.IsJson
  | [] => by simp
  | v :: items => List.forall_mem_cons.mpr ⟨isJson_pruned v, isJson_prunedItems items⟩

theorem isJson_prunedMembers : ∀ members : List (JsStr × JsValue),
    ∀ m ∈ members, m.2.Distinct → m.2.IsCanonicalizable → m.2.pruned.IsJson
  | [] => by simp
  | (_, v) :: members => List.forall_mem_cons.mpr ⟨isJson_pruned v, isJson_prunedMembers members⟩

end

mutual

theorem erased_normal : ∀ v : JsValue, v.IsCanonicalizable → v.pruned.normal.erased = v.pruned.normal
  | .undefined, _ | .null, _ | .bool _, _ | .str _, _ => rfl
  | .num b, h => by
    rw [JsValue.IsCanonicalizable] at h
    rw [JsValue.pruned, JsValue.normal, JsValue.erased, if_pos]
    · split_ifs with zero
      · rfl
      · exact h
    · rintro items ⟨⟩
    · rintro members ⟨⟩
  | .arr items, h => by
    rw [JsValue.IsCanonicalizable, canonicalizableItems_iff] at h
    rw [JsValue.pruned, JsValue.normal, JsValue.erased, prunedItems_eq, normalItems_eq, erasedItems_eq,
      List.map_map, List.map_map, List.map_map]
    exact congrArg JsValue.arr (List.map_congr_left (fun v member => erased_normalItems items v member
      (h v member)))
  | .obj members, h => by
    rw [JsValue.IsCanonicalizable, canonicalizableMembers_iff] at h
    rw [JsValue.pruned, JsValue.normal, JsValue.erased, prunedMembers_eq, normalMembers_eq,
      erasedMembers_eq, ← insertionSort_names, List.map_map, List.map_map, List.map_map]
    refine congrArg (fun m => JsValue.obj (List.insertionSort (fun m m' => m.1 ≤ m'.1) m))
      (List.map_congr_left (fun m member => Prod.ext rfl ?_))
    exact erased_normalMembers members m (List.mem_of_mem_filter member) (h m member)

theorem erased_normalItems : ∀ items : List JsValue,
    ∀ v ∈ items, v.IsCanonicalizable → v.pruned.normal.erased = v.pruned.normal
  | [] => by simp
  | v :: items => List.forall_mem_cons.mpr ⟨erased_normal v, erased_normalItems items⟩

theorem erased_normalMembers : ∀ members : List (JsStr × JsValue),
    ∀ m ∈ members, m.2.IsCanonicalizable → m.2.pruned.normal.erased = m.2.pruned.normal
  | [] => by simp
  | (_, v) :: members => List.forall_mem_cons.mpr ⟨erased_normal v, erased_normalMembers members⟩

end

theorem isUndefined_normal (v : JsValue) : v.pruned.normal.isUndefined = v.isUndefined := by
  cases v <;> rfl

mutual

theorem canonicalizable_normal : ∀ v : JsValue, v.pruned.normal.IsCanonicalizable ↔ v.IsCanonicalizable
  | .undefined | .null | .bool _ | .str _ => Iff.rfl
  | .num b => by
    have left : (JsValue.num b).pruned.normal = .num (if Binary64.isZero b then 0 else b) := rfl
    rw [left, JsValue.IsCanonicalizable, JsValue.IsCanonicalizable]
    split_ifs with zero
    · exact iff_of_true rfl (isFinite_of_isZero zero)
    · exact Iff.rfl
  | .arr items => by
    rw [JsValue.pruned, JsValue.normal, JsValue.IsCanonicalizable, JsValue.IsCanonicalizable, prunedItems_eq,
      normalItems_eq, canonicalizableItems_iff, canonicalizableItems_iff, List.map_map, List.forall_mem_map]
    exact forall₂_congr (canonicalizable_normalItems items)
  | .obj members => by
    rw [JsValue.pruned, JsValue.normal, JsValue.IsCanonicalizable, JsValue.IsCanonicalizable, prunedMembers_eq,
      normalMembers_eq, canonicalizableMembers_iff, canonicalizableMembers_iff, List.map_map]
    have same : ∀ m ∈ members.filter (fun m => !m.2.isUndefined),
        (m.2.pruned.normal.IsCanonicalizable ↔ m.2.IsCanonicalizable) :=
      fun m member => canonicalizable_normalMembers members m (List.mem_of_mem_filter member)
    constructor
    · intro h m member
      refine (same m member).mp (h (m.1, m.2.pruned.normal) (List.mem_filter.mpr ⟨?_, ?_⟩))
      · exact (List.mem_insertionSort _).mpr (List.mem_map.mpr ⟨m, member, rfl⟩)
      · rw [isUndefined_normal]
        exact (List.mem_filter.mp member).2
    · intro h e inside
      obtain ⟨m, member, rfl⟩ := List.mem_map.mp
        ((List.mem_insertionSort _).mp (List.mem_of_mem_filter inside))
      exact (same m member).mpr (h m member)

theorem canonicalizable_normalItems : ∀ items : List JsValue,
    ∀ v ∈ items, v.pruned.normal.IsCanonicalizable ↔ v.IsCanonicalizable
  | [] => by simp
  | v :: items => List.forall_mem_cons.mpr ⟨canonicalizable_normal v, canonicalizable_normalItems items⟩

theorem canonicalizable_normalMembers : ∀ members : List (JsStr × JsValue),
    ∀ m ∈ members, m.2.pruned.normal.IsCanonicalizable ↔ m.2.IsCanonicalizable
  | [] => by simp
  | (_, v) :: members =>
    List.forall_mem_cons.mpr ⟨canonicalizable_normal v, canonicalizable_normalMembers members⟩

end

theorem ofTree_written {v : JsValue} (distinct : v.Distinct) (h : v.IsCanonicalizable) :
    ofTree (canonicalTree v.pruned) = v.pruned.normal := by
  rw [ofTree_canonicalTree _ (isJson_pruned v distinct h), erased_normal v h]

theorem canonicalize_eq {v : JsValue} (h : v.IsCanonicalizable) :
    canonicalize v = .ok (encode (unitsOf (canonicalTree v.pruned).text)) := by
  rw [canonicalize, canonicalizeToString, serialize_eq v h]
  rfl

theorem returns_canonicalize (v : JsValue) : Returns (canonicalize v) ↔ v.IsCanonicalizable := by
  rw [canonicalize, Raising.returns_bind_pure, canonicalizeToString, Raising.returns_bind_pure,
    returns_serialize]

theorem jsonParse_canonicalizeToString {v : JsValue} (distinct : v.Distinct) {text : JsStr}
    (written : canonicalizeToString v = .ok text) : jsonParse text = some v.pruned.normal := by
  have h : v.IsCanonicalizable := by
    rw [← returns_serialize, ← Raising.returns_bind_pure]
    exact ⟨text, written⟩
  rw [canonicalizeToString, serialize_eq v h] at written
  cases written
  have standard : (canonicalTree v.pruned).standard = true := by
    rw [canonicalTree_eq]
    exact (plainTree_wellSpelled _).2
  rw [jsonParse, readJson, (isUnicode_canonicalTree _).units.2, JsonText.read_text (canonicalTree_wellSpelled _),
    Option.filter_some, if_pos standard, Option.map_some, ofTree_written distinct h]

/-- A value is written in the bytes of another exactly where the two are equal, but for the order of
members, the sign of zero and the members that are `undefined`. -/
theorem canonicalize_eq_iff {v w : JsValue} (hv : v.Distinct) (hw : w.Distinct) {bytes : Bytes}
    (written : canonicalize v = .ok bytes) :
    canonicalize w = .ok bytes ↔ w.pruned.normal = v.pruned.normal := by
  have left := (returns_canonicalize v).mp ⟨bytes, written⟩
  rw [← written, canonicalize_eq left]
  constructor
  · intro same
    have right := (returns_canonicalize w).mp ⟨_, same⟩
    rw [canonicalize_eq right, Except.ok.injEq] at same
    have texts := encode_injective (isUnicode_canonicalTree _) (isUnicode_canonicalTree _) same
    have trees := JsonText.text_injective (canonicalTree_wellSpelled _) (canonicalTree_wellSpelled _) texts
    rw [← ofTree_written hv left, ← ofTree_written hw right, trees]
  · intro same
    have right : w.IsCanonicalizable := by
      rw [← canonicalizable_normal, same, canonicalizable_normal]
      exact left
    rw [canonicalize_eq right, canonicalTree_eq, canonicalTree_eq, same]

/-- The canonicalizer returns exactly on finite numbers and without `undefined` outside of members.
Its text is read back as the value, and its bytes are those of no other value. -/
theorem canonicalize_exact {v : JsValue} (distinct : v.Distinct) :
    (Returns (canonicalize v) ↔ v.IsCanonicalizable) ∧
      (∀ text, canonicalizeToString v = .ok text → jsonParse text = some v.pruned.normal) ∧
      ∀ bytes, canonicalize v = .ok bytes → ∀ w : JsValue, w.Distinct →
        (canonicalize w = .ok bytes ↔ w.pruned.normal = v.pruned.normal) :=
  ⟨returns_canonicalize v, fun _ written => jsonParse_canonicalizeToString distinct written,
    fun _ written _ distinct' => canonicalize_eq_iff distinct distinct' written⟩

/-- An object with a member that is `undefined`, and members that are out of order. -/
def unordered : JsValue :=
  .obj [(js "b", .num 0x8000000000000000), (js "a", .arr [.str (js "\u0007"), .null]), (js "c", .undefined)]

def orderedText : JsStr := js "\x7b\"a\":[\"\\u0007\",null],\"b\":0\x7d"

theorem canonicalize_exact_unordered : canonicalizeToString unordered = .ok orderedText ∧
    jsonParse orderedText = some unordered.pruned.normal := by
  have distinct : unordered.Distinct := by
    simp only [unordered, JsValue.Distinct, DistinctMembers, DistinctItems, and_true]
    decide
  have written : canonicalizeToString unordered = .ok orderedText := by decide +kernel
  exact ⟨written, (canonicalize_exact distinct).2.1 _ written⟩

end VaidSuite.TypeScript
