import VaidSuite.Lib.JsonReader

/-! The compact text of a tree, and that it reads back as the tree. -/
namespace JsonText

mutual

def Tree.text : Tree → Text
  | .null => codes "null"
  | .bool true => codes "true"
  | .bool false => codes "false"
  | .num s => s
  | .str s => quote :: (s ++ [quote])
  | .arr items => openBracket :: (itemsText items ++ [closeBracket])
  | .obj members => openBrace :: (membersText members ++ [closeBrace])

def itemsText : List Tree → Text
  | [] => []
  | t :: items => t.text ++ moreItemsText items

def moreItemsText : List Tree → Text
  | [] => []
  | t :: items => comma :: (t.text ++ moreItemsText items)

def membersText : List (Text × Tree) → Text
  | [] => []
  | (name, t) :: members => quote :: (name ++ quote :: colon :: (t.text ++ moreMembersText members))

def moreMembersText : List (Text × Tree) → Text
  | [] => []
  | (name, t) :: members =>
    comma :: quote :: (name ++ quote :: colon :: (t.text ++ moreMembersText members))

end

def Ends (rest : Text) : Prop := ∀ c ∈ rest.head?, isNumeral c = false

/-- A number, as a reader takes it from the start of a text. -/
structure NumberSpelled (s : Text) : Prop where
  starts : ∃ c t, s = c :: t ∧ (c = 0x2d ∨ isDigit c = true)
  reads : ∀ rest, Ends rest → number (s ++ rest) = some (s, rest)

mutual

def Tree.WellSpelled : Tree → Prop
  | .num s => NumberSpelled s
  | .str s => Spelled s
  | .arr items => WellSpelledItems items
  | .obj members => WellSpelledMembers members
  | .null | .bool _ => True

def WellSpelledItems : List Tree → Prop
  | [] => True
  | t :: items => t.WellSpelled ∧ WellSpelledItems items

def WellSpelledMembers : List (Text × Tree) → Prop
  | [] => True
  | (name, t) :: members => Spelled name ∧ t.WellSpelled ∧ WellSpelledMembers members

end

theorem string_spelled {s : Text} (spelled : Spelled s) (rest : Text) :
    string (s ++ quote :: rest) = some (s, rest) := by
  induction spelled with
  | nil => rw [List.nil_append, string_cons, if_pos rfl]
  | plain notQuote notBackslash printed _ ih =>
    rw [List.cons_append, string_cons, if_neg notQuote, if_neg notBackslash, if_neg (by omega), ih]
    rfl
  | simple member _ ih =>
    rw [List.cons_append, string_cons, if_neg (by decide), if_pos rfl, List.cons_append]
    dsimp only
    rw [if_pos member, ih]
    rfl
  | hex four hex _ ih =>
    rw [List.cons_append, string_cons, if_neg (by decide), if_pos rfl, List.cons_append]
    dsimp only
    rw [if_neg (by decide), if_pos rfl, List.append_assoc, hexEscape_append four hex, Option.bind_some,
      ih]
    rfl

theorem skipSpace_of_ne {c : Nat} (h : isSpace c = false) (t : Text) : skipSpace (c :: t) = c :: t :=
  List.dropWhile_cons_of_neg (by simp [h])

theorem ends_cons {c : Nat} (h : isNumeral c = false) (t : Text) : Ends (c :: t) := by
  intro d member
  rw [List.head?_cons, Option.mem_some_iff] at member
  rw [← member]
  exact h

/-- What starts a text of a tree: no space, and nothing that closes. -/
def Opens (t : Text) : Prop := ∃ c u, t = c :: u ∧ isSpace c = false ∧ c ≠ closeBracket ∧ c ≠ closeBrace

theorem opens_number {s : Text} (h : NumberSpelled s) : Opens s := by
  obtain ⟨c, u, rfl, minus | digit⟩ := h.starts
  · exact ⟨c, u, rfl, by rw [minus]; decide, by rw [minus]; decide, by rw [minus]; decide⟩
  · have bounds : 0x30 ≤ c ∧ c ≤ 0x39 := by simpa [isDigit] using digit
    refine ⟨c, u, rfl, ?_, ?_, ?_⟩
    · simp only [isSpace, Bool.or_eq_false_iff, beq_eq_false_iff_ne]
      omega
    · unfold closeBracket
      omega
    · unfold closeBrace
      omega

theorem opens_text {t : Tree} (h : t.WellSpelled) : Opens t.text := by
  cases t with
  | num s =>
    rw [Tree.WellSpelled] at h
    rw [Tree.text]
    exact opens_number h
  | bool b => cases b <;> exact ⟨_, _, rfl, by decide, by decide, by decide⟩
  | null | str _ | arr _ | obj _ =>
    rw [Tree.text]
    exact ⟨_, _, rfl, by decide, by decide, by decide⟩

theorem Opens.append {t : Text} (h : Opens t) (rest : Text) : Opens (t ++ rest) := by
  obtain ⟨c, u, rfl, others⟩ := h
  exact ⟨c, u ++ rest, rfl, others⟩

theorem Opens.skipSpace {t : Text} (h : Opens t) : JsonText.skipSpace t = t := by
  obtain ⟨c, u, rfl, notSpace, _⟩ := h
  exact skipSpace_of_ne notSpace _

theorem Opens.behind {t : Text} (h : Opens t) {close : Nat}
    (closes : close = closeBracket ∨ close = closeBrace) : JsonText.behind close t = none := by
  obtain ⟨c, u, rfl, _, notBracket, notBrace⟩ := h
  refine if_neg (fun same => ?_)
  rcases closes with rfl | rfl
  · exact notBracket same
  · exact notBrace same

theorem container_text {α : Type} {close : Nat} (closes : close = closeBracket ∨ close = closeBrace)
    (make : List α → Tree) {body : Text → Option (List α × Text)} {t rest : Text} {all : List α}
    (opens : Opens t) (reads : body t = some (all, rest)) :
    container close make body (skipSpace t) = some (make all, rest) := by
  rw [opens.skipSpace, container, opens.behind closes, reads]
  rfl

theorem value_scalar {fuel c : Nat} {rest : Text} (notQuote : c ≠ quote) (notBracket : c ≠ openBracket)
    (notBrace : c ≠ openBrace) : value (fuel + 1) (c :: rest) = scalar (c :: rest) := by
  rw [value_cons, if_neg notQuote, if_neg notBracket, if_neg notBrace]

theorem scalar_number {s : Text} (h : NumberSpelled s) {rest : Text} (ends : Ends rest) :
    scalar (s ++ rest) = some (.num s, rest) := by
  have reads := h.reads rest ends
  obtain ⟨c, u, rfl, starts⟩ := h.starts
  have word : ∀ d t, isDigit d = false → d ≠ 0x2d → after (d :: t) (c :: (u ++ rest)) = none := by
    intro d t notDigit notMinus
    have other : d ≠ c := by
      rintro rfl
      rcases starts with minus | digit
      · exact notMinus minus
      · rw [digit] at notDigit
        cases notDigit
    refine if_neg ?_
    simp [List.isPrefixOf, other]
  rw [List.cons_append] at reads
  rw [List.cons_append]
  simp only [scalar, show codes "null" = 0x6e :: [0x75, 0x6c, 0x6c] from rfl,
    show codes "true" = 0x74 :: [0x72, 0x75, 0x65] from rfl,
    show codes "false" = 0x66 :: [0x61, 0x6c, 0x73, 0x65] from rfl,
    word 0x6e _ (by decide) (by decide), word 0x74 _ (by decide) (by decide),
    word 0x66 _ (by decide) (by decide), reads, Option.map_some, Prod.map_apply, id]

theorem value_number {s : Text} (h : NumberSpelled s) {rest : Text} (ends : Ends rest) (fuel : Nat) :
    value (fuel + 1) (s ++ rest) = some (.num s, rest) := by
  rw [← scalar_number h ends]
  obtain ⟨c, u, rfl, minus | digit⟩ := h.starts
  · rw [minus]
    exact value_scalar (by decide) (by decide) (by decide)
  · have bounds : 0x30 ≤ c ∧ c ≤ 0x39 := by simpa [isDigit] using digit
    refine value_scalar ?_ ?_ ?_ <;> simp only [quote, openBracket, openBrace] <;> omega

theorem ends_moreItems (items : List Tree) (rest : Text) :
    Ends (moreItemsText items ++ closeBracket :: rest) := by
  cases items with
  | nil => exact ends_cons (by decide) _
  | cons t items =>
    rw [moreItemsText]
    exact ends_cons (by decide) _

theorem ends_moreMembers (members : List (Text × Tree)) (rest : Text) :
    Ends (moreMembersText members ++ closeBrace :: rest) := by
  cases members with
  | nil => exact ends_cons (by decide) _
  | cons m members =>
    rw [moreMembersText]
    exact ends_cons (by decide) _

mutual

theorem value_text : ∀ t : Tree, t.WellSpelled → ∀ rest, Ends rest → ∀ fuel,
    2 * (t.text ++ rest).length + 1 ≤ fuel → value fuel (t.text ++ rest) = some (t, rest)
  | _, _, _, _, 0, enough => by omega
  | .null, _, rest, _, fuel + 1, _ => value_scalar (by decide) (by decide) (by decide)
  | .bool true, _, rest, _, fuel + 1, _ => value_scalar (by decide) (by decide) (by decide)
  | .bool false, _, rest, _, fuel + 1, _ => value_scalar (by decide) (by decide) (by decide)
  | .num s, spelled, rest, ends, fuel + 1, _ => by
    rw [Tree.WellSpelled] at spelled
    rw [Tree.text]
    exact value_number spelled ends fuel
  | .str s, spelled, rest, _, fuel + 1, _ => by
    rw [Tree.WellSpelled] at spelled
    rw [Tree.text, List.cons_append, List.append_assoc, List.singleton_append, value_cons, if_pos rfl,
      string_spelled spelled]
    rfl
  | .arr [], _, rest, _, fuel + 1, _ => by
    rw [Tree.text, itemsText, List.cons_append, value_cons, if_neg (by decide), if_pos rfl]
    rfl
  | .arr (t :: more), spelled, rest, _, fuel + 1, enough => by
    rw [Tree.WellSpelled] at spelled
    rw [Tree.text, List.cons_append, List.append_assoc, List.singleton_append] at enough ⊢
    have opens := (opens_text spelled.1).append (moreItemsText more ++ closeBracket :: rest)
    have reads := items_text t more spelled.1 spelled.2 rest fuel (by
      simp only [itemsText, List.length_cons, List.length_append] at enough ⊢
      omega)
    rw [itemsText, List.append_assoc, value_cons, if_neg (by decide), if_pos rfl]
    exact container_text (.inl rfl) .arr opens reads
  | .obj [], _, rest, _, fuel + 1, _ => by
    rw [Tree.text, membersText, List.cons_append, value_cons, if_neg (by decide), if_neg (by decide),
      if_pos rfl]
    rfl
  | .obj ((name, t) :: more), spelled, rest, _, fuel + 1, enough => by
    rw [Tree.WellSpelled] at spelled
    rw [Tree.text, List.cons_append, List.append_assoc, List.singleton_append] at enough ⊢
    have reads := members_text name t more spelled.1 spelled.2.1 spelled.2.2 rest fuel (by
      simp only [membersText, List.length_cons, List.length_append] at enough ⊢
      omega)
    rw [membersText, List.cons_append, List.append_assoc, List.cons_append, List.cons_append,
      List.append_assoc, value_cons, if_neg (by decide), if_neg (by decide), if_pos rfl]
    exact container_text (.inr rfl) .obj ⟨quote, _, rfl, by decide, by decide, by decide⟩ reads

theorem items_text : ∀ (t : Tree) (more : List Tree), t.WellSpelled → WellSpelledItems more → ∀ rest fuel,
    2 * (t.text ++ (moreItemsText more ++ closeBracket :: rest)).length + 2 ≤ fuel →
      items fuel (t.text ++ (moreItemsText more ++ closeBracket :: rest)) = some (t :: more, rest)
  | _, _, _, _, _, 0, enough => by omega
  | t, [], first, _, rest, fuel + 1, enough => by
    rw [items_succ, value_text t first _ (ends_moreItems [] rest) fuel (by omega)]
    rfl
  | t, u :: more, first, others, rest, fuel + 1, enough => by
    have opens := (opens_text others.1).append (moreItemsText more ++ closeBracket :: rest)
    have reads := items_text u more others.1 others.2 rest fuel (by
      simp only [moreItemsText, List.length_cons, List.length_append] at enough ⊢
      omega)
    rw [items_succ, value_text t first _ (ends_moreItems (u :: more) rest) fuel (by omega),
      Option.bind_some, moreItemsText, List.cons_append, List.append_assoc, skipSpace_of_ne (by decide),
      continued_cons, if_neg (by decide), if_pos rfl, opens.skipSpace, reads]
    rfl

theorem members_text : ∀ (name : Text) (t : Tree) (more : List (Text × Tree)), Spelled name →
    t.WellSpelled → WellSpelledMembers more → ∀ rest fuel,
    2 * (quote :: (name ++ quote :: colon :: (t.text ++ (moreMembersText more ++ closeBrace :: rest)))).length
      + 2 ≤ fuel →
      members fuel (quote :: (name ++ quote :: colon ::
        (t.text ++ (moreMembersText more ++ closeBrace :: rest)))) = some ((name, t) :: more, rest)
  | _, _, _, _, _, _, _, 0, enough => by omega
  | name, t, more, named, first, others, rest, fuel + 1, enough => by
    have opens := (opens_text first).append (moreMembersText more ++ closeBrace :: rest)
    have reads := value_text t first _ (ends_moreMembers more rest) fuel (by
      simp only [List.length_cons, List.length_append] at enough ⊢
      omega)
    rw [members_succ, behind, if_pos rfl, Option.bind_some, string_spelled named, Option.bind_some,
      skipSpace_of_ne (by decide), behind, if_pos rfl, Option.bind_some, opens.skipSpace, reads,
      Option.bind_some]
    match more, others with
    | [], _ => rfl
    | (key, u) :: more, others =>
      have reads := members_text key u more others.1 others.2.1 others.2.2 rest fuel (by
        simp only [moreMembersText, List.length_cons, List.length_append] at enough ⊢
        omega)
      rw [moreMembersText, List.cons_append, List.cons_append, List.append_assoc, List.cons_append,
        List.cons_append, List.append_assoc, skipSpace_of_ne (by decide), continued_cons,
        if_neg (by decide), if_pos rfl, skipSpace_of_ne (by decide), reads]
      rfl

end

theorem read_text {t : Tree} (spelled : t.WellSpelled) : read t.text = some t := by
  have opens := opens_text spelled
  have reads := value_text t spelled [] (by simp [Ends]) (2 * t.text.length + 1) (by
    rw [List.append_nil])
  rw [List.append_nil] at reads
  rw [read, opens.skipSpace, reads]
  rfl

theorem text_injective {t u : Tree} (spelledLeft : t.WellSpelled) (spelledRight : u.WellSpelled)
    (same : t.text = u.text) : t = u := by
  have left := read_text spelledLeft
  rw [same, read_text spelledRight] at left
  exact (Option.some.inj left).symm

end JsonText
