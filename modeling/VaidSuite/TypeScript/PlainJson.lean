import VaidSuite.Lib.JsonWriter
import VaidSuite.TypeScript.Stringify

/-! The text of a value whose members stand in a given order, and what it is read back as. -/
namespace VaidSuite.TypeScript

open JsonText (Text Tree)

mutual

/-- No `undefined` at any depth, and no two members of one name. -/
def JsValue.IsJson : JsValue → Prop
  | .undefined => False
  | .arr items => IsJsonItems items
  | .obj members => (members.map Prod.fst).Nodup ∧ IsJsonMembers members
  | .null | .bool _ | .num _ | .str _ => True

def IsJsonItems : List JsValue → Prop
  | [] => True
  | v :: items => v.IsJson ∧ IsJsonItems items

def IsJsonMembers : List (JsStr × JsValue) → Prop
  | [] => True
  | (_, v) :: members => v.IsJson ∧ IsJsonMembers members

end

theorem isJsonItems_iff (items : List JsValue) : IsJsonItems items ↔ ∀ v ∈ items, v.IsJson := by
  induction items with
  | nil => simp [IsJsonItems]
  | cons v items ih => rw [IsJsonItems, ih, List.forall_mem_cons]

theorem isJsonMembers_iff (members : List (JsStr × JsValue)) :
    IsJsonMembers members ↔ ∀ m ∈ members, m.2.IsJson := by
  induction members with
  | nil => simp [IsJsonMembers]
  | cons m members ih =>
    obtain ⟨name, v⟩ := m
    rw [IsJsonMembers, ih, List.forall_mem_cons]

mutual

theorem ofTree_isJson : ∀ t : Tree, (ofTree t).IsJson
  | .null | .bool _ | .num _ | .str _ => by simp [ofTree, JsValue.IsJson]
  | .arr items => by
    rw [ofTree, JsValue.IsJson, isJsonItems_iff, ofItems_eq]
    intro v member
    obtain ⟨t, taken, rfl⟩ := List.mem_map.mp member
    exact ofItems_isJson items t taken
  | .obj members => by
    rw [ofTree, JsValue.IsJson, isJsonMembers_iff, ofMembers_eq, List.map_map]
    refine ⟨InsertionMap.nodup_ofList _ _, fun m member => ?_⟩
    obtain ⟨e, taken, rfl⟩ := List.mem_map.mp member
    exact ofMembers_isJson members e.2 (InsertionMap.mem_ofList taken).2

theorem ofItems_isJson : ∀ items : List Tree, ∀ t ∈ items, (ofTree t).IsJson
  | [] => by simp
  | t :: items => List.forall_mem_cons.mpr ⟨ofTree_isJson t, ofItems_isJson items⟩

theorem ofMembers_isJson : ∀ members : List (Text × Tree), ∀ m ∈ members, (ofTree m.2).IsJson
  | [] => by simp
  | (_, t) :: members => List.forall_mem_cons.mpr ⟨ofTree_isJson t, ofMembers_isJson members⟩

end

theorem isJson_of_jsonParse {text : JsStr} {v : JsValue} (h : jsonParse text = some v) : v.IsJson := by
  obtain ⟨t, _, rfl⟩ := Option.map_eq_some_iff.mp h
  exact ofTree_isJson t

mutual

def plainTree : JsValue → Tree
  | .undefined | .null => .null
  | .bool b => .bool b
  | .num b => if Binary64.isFinite b then .num (numberText b) else .null
  | .str s => .str (quotedText s)
  | .arr items => .arr (plainTrees items)
  | .obj members => .obj (plainMembers members)

def plainTrees : List JsValue → List Tree
  | [] => []
  | v :: items => plainTree v :: plainTrees items

def plainMembers : List (JsStr × JsValue) → List (Text × Tree)
  | [] => []
  | (name, v) :: members => (quotedText name, plainTree v) :: plainMembers members

end

mutual

/-- What is read back: `-0` as `0`, and what is not finite as `null`. -/
def JsValue.written : JsValue → JsValue
  | .num b => if Binary64.isFinite b then .num (if Binary64.isZero b then 0 else b) else .null
  | .arr items => .arr (writtenItems items)
  | .obj members => .obj (writtenMembers members)
  | v => v

def writtenItems : List JsValue → List JsValue
  | [] => []
  | v :: items => v.written :: writtenItems items

def writtenMembers : List (JsStr × JsValue) → List (JsStr × JsValue)
  | [] => []
  | (name, v) :: members => (name, v.written) :: writtenMembers members

end

theorem plainTrees_eq (items : List JsValue) : plainTrees items = items.map plainTree := by
  induction items with
  | nil => rw [plainTrees, List.map_nil]
  | cons v items ih => rw [plainTrees, ih, List.map_cons]

theorem plainMembers_eq (members : List (JsStr × JsValue)) :
    plainMembers members = members.map (Prod.map quotedText plainTree) := by
  induction members with
  | nil => rw [plainMembers, List.map_nil]
  | cons m members ih =>
    obtain ⟨name, v⟩ := m
    rw [plainMembers, ih, List.map_cons]
    rfl

theorem writtenItems_eq (items : List JsValue) : writtenItems items = items.map JsValue.written := by
  induction items with
  | nil => rw [writtenItems, List.map_nil]
  | cons v items ih => rw [writtenItems, ih, List.map_cons]

theorem writtenMembers_eq (members : List (JsStr × JsValue)) :
    writtenMembers members = members.map (Prod.map id JsValue.written) := by
  induction members with
  | nil => rw [writtenMembers, List.map_nil]
  | cons m members ih =>
    obtain ⟨name, v⟩ := m
    rw [writtenMembers, ih, List.map_cons]
    rfl

theorem joined_items (items : List Tree) :
    joined (items.map Tree.text) = JsonText.itemsText items := by
  have more : ∀ items : List Tree, (items.map Tree.text).flatMap (fun u => JsonText.comma :: u) =
      JsonText.moreItemsText items := by
    intro items
    induction items with
    | nil => rfl
    | cons t items ih =>
      rw [List.map_cons, List.flatMap_cons, ih, JsonText.moreItemsText]
      rfl
  cases items with
  | nil => rfl
  | cons t items => rw [List.map_cons, joined, more, JsonText.itemsText]

theorem memberText_eq (name : JsStr) (t : Text) : memberText (name, t) =
    JsonText.quote :: (quotedText name ++ JsonText.quote :: JsonText.colon :: t) := by
  simp [memberText, stringText]

theorem joined_members (members : List (JsStr × Tree)) :
    joined (members.map (fun m => memberText (m.1, m.2.text))) =
      JsonText.membersText (members.map (Prod.map quotedText id)) := by
  have more : ∀ members : List (JsStr × Tree),
      (members.map (fun m => memberText (m.1, m.2.text))).flatMap (fun u => JsonText.comma :: u) =
        JsonText.moreMembersText (members.map (Prod.map quotedText id)) := by
    intro members
    induction members with
    | nil => rfl
    | cons m members ih =>
      obtain ⟨name, t⟩ := m
      rw [List.map_cons, List.flatMap_cons, ih, List.map_cons, Prod.map_apply, JsonText.moreMembersText,
        memberText_eq]
      simp
  cases members with
  | nil => rfl
  | cons m members =>
    obtain ⟨name, t⟩ := m
    rw [List.map_cons, joined, more, List.map_cons, Prod.map_apply, JsonText.membersText, memberText_eq]
    simp

theorem wellSpelledItems_iff (items : List Tree) :
    JsonText.WellSpelledItems items ↔ ∀ t ∈ items, t.WellSpelled := by
  induction items with
  | nil => simp [JsonText.WellSpelledItems]
  | cons t items ih => rw [JsonText.WellSpelledItems, ih, List.forall_mem_cons]

theorem wellSpelledMembers_iff (members : List (Text × Tree)) :
    JsonText.WellSpelledMembers members ↔ ∀ m ∈ members, JsonText.Spelled m.1 ∧ m.2.WellSpelled := by
  induction members with
  | nil => simp [JsonText.WellSpelledMembers]
  | cons m members ih =>
    obtain ⟨name, t⟩ := m
    rw [JsonText.WellSpelledMembers, ih, List.forall_mem_cons, and_assoc]

theorem standardItems_iff (items : List Tree) :
    JsonText.standardItems items = true ↔ ∀ t ∈ items, t.standard = true := by
  induction items with
  | nil => simp [JsonText.standardItems]
  | cons t items ih => rw [JsonText.standardItems, Bool.and_eq_true, ih, List.forall_mem_cons]

theorem standardMembers_iff (members : List (Text × Tree)) :
    JsonText.standardMembers members = true ↔ ∀ m ∈ members, m.2.standard = true := by
  induction members with
  | nil => simp [JsonText.standardMembers]
  | cons m members ih =>
    obtain ⟨name, t⟩ := m
    rw [JsonText.standardMembers, Bool.and_eq_true, ih, List.forall_mem_cons]

theorem numberText_standard {b : Binary64.Bits} (finite : Binary64.isFinite b = true) :
    (Tree.num (numberText b)).standard = true := by
  unfold numberText
  split_ifs with zero
  · decide
  · exact JsonText.Numeral.standard_text (numeralOf_wellFormed finite (by simpa using zero))

mutual

theorem plainTree_wellSpelled : ∀ v : JsValue, (plainTree v).WellSpelled ∧ (plainTree v).standard = true
  | .undefined | .null | .bool _ => by simp [plainTree, Tree.WellSpelled, Tree.standard]
  | .num b => by
    rw [plainTree]
    split_ifs with finite
    · rw [Tree.WellSpelled]
      exact ⟨numberText_spelled finite, numberText_standard finite⟩
    · simp [Tree.WellSpelled, Tree.standard]
  | .str s => by
    rw [plainTree, Tree.WellSpelled]
    exact ⟨spelled_quotedText s, rfl⟩
  | .arr items => by
    rw [plainTree, Tree.WellSpelled, Tree.standard, wellSpelledItems_iff, standardItems_iff, plainTrees_eq]
    have each := plainTrees_wellSpelled items
    exact ⟨List.forall_mem_map.mpr (fun v listed => (each v listed).1),
      List.forall_mem_map.mpr (fun v listed => (each v listed).2)⟩
  | .obj members => by
    rw [plainTree, Tree.WellSpelled, Tree.standard, wellSpelledMembers_iff, standardMembers_iff,
      plainMembers_eq]
    have each := plainMembers_wellSpelled members
    exact ⟨List.forall_mem_map.mpr (fun m listed => ⟨spelled_quotedText _, (each m listed).1⟩),
      List.forall_mem_map.mpr (fun m listed => (each m listed).2)⟩

theorem plainTrees_wellSpelled : ∀ items : List JsValue, ∀ v ∈ items,
    (plainTree v).WellSpelled ∧ (plainTree v).standard = true
  | [] => by simp
  | v :: items => List.forall_mem_cons.mpr ⟨plainTree_wellSpelled v, plainTrees_wellSpelled items⟩

theorem plainMembers_wellSpelled : ∀ members : List (JsStr × JsValue), ∀ m ∈ members,
    (plainTree m.2).WellSpelled ∧ (plainTree m.2).standard = true
  | [] => by simp
  | (_, v) :: members => List.forall_mem_cons.mpr ⟨plainTree_wellSpelled v, plainMembers_wellSpelled members⟩

end

theorem isFinite_of_isZero {b : Binary64.Bits} (zero : Binary64.isZero b = true) :
    Binary64.isFinite b = true := by
  have low : b.toNat % 2 ^ 63 = 0 := by simpa [Binary64.isZero] using zero
  have exponent : Binary64.exponent b = 0 := by
    unfold Binary64.exponent
    omega
  rw [Binary64.isFinite, exponent]
  rfl

mutual

theorem ofTree_plainTree : ∀ v : JsValue, v.IsJson → ofTree (plainTree v) = v.written
  | .undefined, h => by
    rw [JsValue.IsJson] at h
    exact h.elim
  | .null, _ | .bool _, _ => rfl
  | .str s, _ => by
    rw [plainTree, ofTree, stringOf_quotedText]
    rfl
  | .num b, _ => by
    rw [plainTree, JsValue.written]
    split_ifs with finite
    · rw [ofTree, numberOf_numberText finite, if_pos ‹_›]
    · rw [ofTree, numberOf_numberText finite, if_neg ‹_›]
    · rfl
  | .arr items, h => by
    rw [JsValue.IsJson, isJsonItems_iff] at h
    rw [plainTree, ofTree, JsValue.written, ofItems_eq, plainTrees_eq, List.map_map, writtenItems_eq]
    exact congrArg JsValue.arr (List.map_congr_left (ofTree_plainTrees items h))
  | .obj members, h => by
    rw [JsValue.IsJson, isJsonMembers_iff] at h
    rw [plainTree, ofTree, JsValue.written, ofMembers_eq, plainMembers_eq, writtenMembers_eq]
    rw [InsertionMap.ofList_of_nodup (by
      rw [List.map_map]
      refine (List.map_congr_left (fun m _ => ?_)) ▸ h.1
      exact (stringOf_quotedText m.1).symm)]
    rw [List.map_map, List.map_map]
    refine congrArg JsValue.obj (List.map_congr_left (fun m member => ?_))
    exact Prod.ext (stringOf_quotedText m.1) (ofTree_plainMembers members h.2 m member)

theorem ofTree_plainTrees : ∀ items : List JsValue, (∀ v ∈ items, v.IsJson) →
    ∀ v ∈ items, ofTree (plainTree v) = v.written
  | [], _ => by simp
  | v :: items, h => by
    rw [List.forall_mem_cons] at h ⊢
    exact ⟨ofTree_plainTree v h.1, ofTree_plainTrees items h.2⟩

theorem ofTree_plainMembers : ∀ members : List (JsStr × JsValue), (∀ m ∈ members, m.2.IsJson) →
    ∀ m ∈ members, ofTree (plainTree m.2) = m.2.written
  | [], _ => by simp
  | (_, v) :: members, h => by
    rw [List.forall_mem_cons] at h ⊢
    exact ⟨ofTree_plainTree v h.1, ofTree_plainMembers members h.2⟩

end

theorem isUnicode_text {t : Text} (h : ∀ c ∈ t, c < 0x80) {u : Text} (hu : IsUnicode u) : IsUnicode (t ++ u) :=
  (isUnicode_ascii h).append hu

theorem isUnicode_moreItemsText {items : List Tree} (h : ∀ t ∈ items, IsUnicode t.text) :
    IsUnicode (JsonText.moreItemsText items) := by
  induction items with
  | nil => exact ⟨[], rfl⟩
  | cons t items ih =>
    rw [List.forall_mem_cons] at h
    rw [JsonText.moreItemsText]
    exact isUnicode_text (t := [JsonText.comma]) (by decide) (h.1.append (ih h.2))

theorem isUnicode_itemsText {items : List Tree} (h : ∀ t ∈ items, IsUnicode t.text) :
    IsUnicode (JsonText.itemsText items) := by
  cases items with
  | nil => exact ⟨[], rfl⟩
  | cons t items =>
    rw [List.forall_mem_cons] at h
    rw [JsonText.itemsText]
    exact h.1.append (isUnicode_moreItemsText h.2)

theorem isUnicode_moreMembersText {members : List (Text × Tree)}
    (h : ∀ m ∈ members, IsUnicode m.1 ∧ IsUnicode m.2.text) :
    IsUnicode (JsonText.moreMembersText members) := by
  induction members with
  | nil => exact ⟨[], rfl⟩
  | cons m members ih =>
    obtain ⟨name, t⟩ := m
    rw [List.forall_mem_cons] at h
    rw [JsonText.moreMembersText]
    exact isUnicode_text (t := [JsonText.comma, JsonText.quote]) (by decide)
      (h.1.1.append (isUnicode_text (t := [JsonText.quote, JsonText.colon]) (by decide)
        (h.1.2.append (ih h.2))))

theorem isUnicode_membersText {members : List (Text × Tree)}
    (h : ∀ m ∈ members, IsUnicode m.1 ∧ IsUnicode m.2.text) : IsUnicode (JsonText.membersText members) := by
  cases members with
  | nil => exact ⟨[], rfl⟩
  | cons m members =>
    obtain ⟨name, t⟩ := m
    rw [List.forall_mem_cons] at h
    rw [JsonText.membersText]
    exact isUnicode_text (t := [JsonText.quote]) (by decide)
      (h.1.1.append (isUnicode_text (t := [JsonText.quote, JsonText.colon]) (by decide)
        (h.1.2.append (isUnicode_moreMembersText h.2))))

mutual

theorem isUnicode_plainTree : ∀ v : JsValue, IsUnicode (plainTree v).text
  | .undefined | .null | .bool true | .bool false => isUnicode_ascii (by decide)
  | .num b => by
    rw [plainTree]
    split_ifs with finite
    · rw [Tree.text]
      exact isUnicode_numberText finite
    · exact isUnicode_ascii (by decide)
  | .str s => by
    rw [plainTree, Tree.text]
    exact isUnicode_text (t := [JsonText.quote]) (by decide)
      ((isUnicode_quotedText s).append (isUnicode_ascii (by decide)))
  | .arr items => by
    rw [plainTree, Tree.text, plainTrees_eq]
    exact isUnicode_text (t := [JsonText.openBracket]) (by decide)
      ((isUnicode_itemsText (List.forall_mem_map.mpr (isUnicode_plainTrees items))).append
        (isUnicode_ascii (by decide)))
  | .obj members => by
    rw [plainTree, Tree.text, plainMembers_eq]
    exact isUnicode_text (t := [JsonText.openBrace]) (by decide)
      ((isUnicode_membersText (List.forall_mem_map.mpr (fun m listed =>
        ⟨isUnicode_quotedText _, isUnicode_plainMembers members m listed⟩))).append
        (isUnicode_ascii (by decide)))

theorem isUnicode_plainTrees : ∀ items : List JsValue, ∀ v ∈ items, IsUnicode (plainTree v).text
  | [] => by simp
  | v :: items => List.forall_mem_cons.mpr ⟨isUnicode_plainTree v, isUnicode_plainTrees items⟩

theorem isUnicode_plainMembers : ∀ members : List (JsStr × JsValue),
    ∀ m ∈ members, IsUnicode (plainTree m.2).text
  | [] => by simp
  | (_, v) :: members =>
    List.forall_mem_cons.mpr ⟨isUnicode_plainTree v, isUnicode_plainMembers members⟩

end

theorem jsonParse_plainTree {v : JsValue} (json : v.IsJson) :
    jsonParse (unitsOf (plainTree v).text) = some v.written := by
  obtain ⟨spelled, standard⟩ := plainTree_wellSpelled v
  rw [jsonParse, readJson, (isUnicode_plainTree v).units.2, JsonText.read_text spelled, Option.filter_some, if_pos standard,
    Option.map_some, ofTree_plainTree v json]

mutual

/-- The members of every object in the order of `Object.keys`. -/
def JsValue.ordered : JsValue → JsValue
  | .arr items => .arr (orderedItems items)
  | .obj members => .obj (ownOrder (orderedMembers members))
  | v => v

def orderedItems : List JsValue → List JsValue
  | [] => []
  | v :: items => v.ordered :: orderedItems items

def orderedMembers : List (JsStr × JsValue) → List (JsStr × JsValue)
  | [] => []
  | (name, v) :: members => (name, v.ordered) :: orderedMembers members

end

theorem orderedItems_eq (items : List JsValue) : orderedItems items = items.map JsValue.ordered := by
  induction items with
  | nil => rw [orderedItems, List.map_nil]
  | cons v items ih => rw [orderedItems, ih, List.map_cons]

theorem orderedMembers_eq (members : List (JsStr × JsValue)) :
    orderedMembers members = members.map (Prod.map id JsValue.ordered) := by
  induction members with
  | nil => rw [orderedMembers, List.map_nil]
  | cons m members ih =>
    obtain ⟨name, v⟩ := m
    rw [orderedMembers, ih, List.map_cons]
    rfl

theorem ownOrder_perm {α : Type} (members : List (JsStr × α)) : (ownOrder members).Perm members := by
  refine ((List.perm_insertionSort _ _).append_right _).trans ?_
  simpa only [Option.not_isSome] using List.filter_append_perm (fun m => (arrayIndex m.1).isSome) members

theorem ownOrder_map {α β : Type} (f : α → β) (members : List (JsStr × α)) :
    ownOrder (members.map (Prod.map id f)) = (ownOrder members).map (Prod.map id f) := by
  unfold ownOrder
  rw [List.map_append, List.filter_map, List.filter_map]
  exact congrArg (· ++ _) (List.map_insertionSort _ _ (Prod.map id f) _ (fun _ _ _ _ => Iff.rfl)).symm

mutual

theorem isJson_ordered : ∀ v : JsValue, v.IsJson → v.ordered.IsJson
  | .undefined, h => h
  | .null, _ | .bool _, _ | .num _, _ | .str _, _ => by simp [JsValue.ordered, JsValue.IsJson]
  | .arr items, h => by
    rw [JsValue.IsJson, isJsonItems_iff] at h
    rw [JsValue.ordered, JsValue.IsJson, isJsonItems_iff, orderedItems_eq]
    exact List.forall_mem_map.mpr (isJson_orderedItems items h)
  | .obj members, h => by
    rw [JsValue.IsJson, isJsonMembers_iff] at h
    rw [JsValue.ordered, JsValue.IsJson, isJsonMembers_iff, ((ownOrder_perm _).map Prod.fst).nodup_iff,
      orderedMembers_eq, List.map_map]
    refine ⟨h.1, fun m member => ?_⟩
    obtain ⟨e, listed, rfl⟩ := List.mem_map.mp ((ownOrder_perm _).mem_iff.mp member)
    exact isJson_orderedMembers members h.2 e listed

theorem isJson_orderedItems : ∀ items : List JsValue, (∀ v ∈ items, v.IsJson) →
    ∀ v ∈ items, v.ordered.IsJson
  | [], _ => by simp
  | v :: items, h => by
    rw [List.forall_mem_cons] at h ⊢
    exact ⟨isJson_ordered v h.1, isJson_orderedItems items h.2⟩

theorem isJson_orderedMembers : ∀ members : List (JsStr × JsValue), (∀ m ∈ members, m.2.IsJson) →
    ∀ m ∈ members, m.2.ordered.IsJson
  | [], _ => by simp
  | (_, v) :: members, h => by
    rw [List.forall_mem_cons] at h ⊢
    exact ⟨isJson_ordered v h.1, isJson_orderedMembers members h.2⟩

end

mutual

theorem stringify_eq : ∀ v : JsValue, v.IsJson → stringify v = some (plainTree v.ordered).text
  | .undefined, h => by
    rw [JsValue.IsJson] at h
    exact h.elim
  | .null, _ | .bool true, _ | .bool false, _ | .str _, _ => rfl
  | .num b, _ => by
    rw [stringify, JsValue.ordered, plainTree]
    · split_ifs <;> rfl
    · intro items same
      cases same
    · intro members same
      cases same
  | .arr items, h => by
    rw [JsValue.IsJson, isJsonItems_iff] at h
    rw [stringify, JsValue.ordered, plainTree, Tree.text, ← joined_items, plainTrees_eq, orderedItems_eq,
      List.map_map, List.map_map, stringifyItems_eq items h]
    rfl
  | .obj members, h => by
    rw [JsValue.IsJson, isJsonMembers_iff] at h
    have trees : plainMembers (ownOrder (orderedMembers members)) =
        (ownOrder (members.map (Prod.map id (fun v => plainTree v.ordered)))).map (Prod.map quotedText id) := by
      rw [plainMembers_eq, orderedMembers_eq, ownOrder_map, ownOrder_map, List.map_map, List.map_map]
      rfl
    have texts : ownOrder (stringifyMembers members) =
        (ownOrder (members.map (Prod.map id (fun v => plainTree v.ordered)))).map (Prod.map id Tree.text) := by
      rw [stringifyMembers_eq members h.2, ← ownOrder_map, List.map_map]
      rfl
    rw [stringify, JsValue.ordered, plainTree, Tree.text, trees, ← joined_members, texts, List.map_map]
    rfl

theorem stringifyItems_eq : ∀ items : List JsValue, (∀ v ∈ items, v.IsJson) →
    stringifyItems items = items.map (fun v => (plainTree v.ordered).text)
  | [], _ => by rw [stringifyItems, List.map_nil]
  | v :: items, h => by
    rw [List.forall_mem_cons] at h
    rw [stringifyItems, stringify_eq v h.1, stringifyItems_eq items h.2, List.map_cons]
    rfl

theorem stringifyMembers_eq : ∀ members : List (JsStr × JsValue), (∀ m ∈ members, m.2.IsJson) →
    stringifyMembers members = members.map (Prod.map id (fun v => (plainTree v.ordered).text))
  | [], _ => by rw [stringifyMembers, List.map_nil]
  | (name, v) :: members, h => by
    rw [List.forall_mem_cons] at h
    rw [stringifyMembers, stringify_eq v h.1, stringifyMembers_eq members h.2, List.map_cons]
    rfl

end

theorem jsonParse_stringify {v : JsValue} (json : v.IsJson) :
    ∃ text, stringify v = some text ∧ IsUnicode text ∧ jsonParse (unitsOf text) = some v.ordered.written :=
  ⟨_, stringify_eq v json, isUnicode_plainTree _, jsonParse_plainTree (isJson_ordered v json)⟩

end VaidSuite.TypeScript
