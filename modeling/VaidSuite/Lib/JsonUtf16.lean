import VaidSuite.Lib.JsonRespell

/-! A JSON text in UTF-16. Its strings denote the code units of the code points that they
denote in a text of code points. -/
namespace JsonText

def NumberTaken (s : Text) : Prop := ∃ t rest, number t = some (s, rest)

mutual

/-- Every string, name and number of the tree is one that the reader takes. -/
def Tree.Taken : Tree → Prop
  | .num s => NumberTaken s
  | .str s => Spelled s
  | .arr items => TakenItems items
  | .obj members => TakenMembers members
  | .null | .bool _ => True

def TakenItems : List Tree → Prop
  | [] => True
  | t :: items => t.Taken ∧ TakenItems items

def TakenMembers : List (Text × Tree) → Prop
  | [] => True
  | (name, t) :: members => Spelled name ∧ t.Taken ∧ TakenMembers members

end

theorem of_container {α : Type} {close : Nat} {make : List α → Tree}
    {body : Text → Option (List α × Text)} {t rest : Text} {tree : Tree}
    (h : container close make body t = some (tree, rest)) :
    ∃ xs, tree = make xs ∧ (xs = [] ∨ body t = some (xs, rest)) := by
  unfold container at h
  split at h
  · cases h
    exact ⟨[], rfl, .inl rfl⟩
  · obtain ⟨⟨xs, rest'⟩, read, same⟩ := Option.map_eq_some_iff.mp h
    cases same
    exact ⟨xs, rfl, .inr read⟩

theorem of_continued {α : Type} {close : Nat} {more : Text → Option (List α × Text)} {item : α}
    {t rest : Text} {xs : List α} (h : continued close more item t = some (xs, rest)) :
    ∃ others, xs = item :: others ∧ (others = [] ∨ ∃ t', more t' = some (others, rest)) := by
  unfold continued at h
  split at h
  · cases h
    exact ⟨[], rfl, .inl rfl⟩
  · obtain ⟨t', -, h⟩ := Option.bind_eq_some_iff.mp h
    obtain ⟨⟨others, rest'⟩, read, same⟩ := Option.map_eq_some_iff.mp h
    cases same
    exact ⟨others, rfl, .inr ⟨_, read⟩⟩

theorem readers_taken (fuel : Nat) :
    (∀ t tree rest, value fuel t = some (tree, rest) → tree.Taken) ∧
      (∀ t xs rest, items fuel t = some (xs, rest) → TakenItems xs) ∧
      ∀ t xs rest, members fuel t = some (xs, rest) → TakenMembers xs := by
  induction fuel with
  | zero =>
    refine ⟨fun t tree rest h => ?_, fun t xs rest h => ?_, fun t xs rest h => ?_⟩
    · cases h
    · cases h
    · cases h
  | succ fuel ih =>
    obtain ⟨ofValue, ofItems, ofMembers⟩ := ih
    refine ⟨fun t tree rest h => ?_, fun t xs rest h => ?_, fun t xs rest h => ?_⟩
    · cases t with
      | nil =>
        rw [value_nil] at h
        cases h
      | cons c t =>
        rw [value_cons] at h
        split_ifs at h
        · obtain ⟨⟨s, rest'⟩, read, same⟩ := Option.map_eq_some_iff.mp h
          cases same
          exact (of_string read).1
        · obtain ⟨xs, rfl, rfl | read⟩ := of_container h
          · exact trivial
          · exact ofItems _ _ _ read
        · obtain ⟨xs, rfl, rfl | read⟩ := of_container h
          · exact trivial
          · exact ofMembers _ _ _ read
        · rcases of_scalar h with ⟨rfl, -⟩ | ⟨rfl, -⟩ | ⟨rfl, -⟩ | ⟨s, rfl, read⟩
          · exact trivial
          · exact trivial
          · exact trivial
          · exact ⟨_, _, read⟩
    · rw [items_succ] at h
      obtain ⟨⟨item, behindItem⟩, read, h⟩ := Option.bind_eq_some_iff.mp h
      obtain ⟨others, rfl, rest_⟩ := of_continued h
      refine ⟨ofValue _ _ _ read, ?_⟩
      rcases rest_ with rfl | ⟨t', more⟩
      · exact trivial
      · exact ofItems _ _ _ more
    · rw [members_succ] at h
      obtain ⟨t, -, h⟩ := Option.bind_eq_some_iff.mp h
      obtain ⟨⟨name, behindName⟩, named, h⟩ := Option.bind_eq_some_iff.mp h
      obtain ⟨t', -, h⟩ := Option.bind_eq_some_iff.mp h
      obtain ⟨⟨item, behindItem⟩, read, h⟩ := Option.bind_eq_some_iff.mp h
      obtain ⟨others, rfl, rest_⟩ := of_continued h
      refine ⟨(of_string named).1, ofValue _ _ _ read, ?_⟩
      rcases rest_ with rfl | ⟨t'', more⟩
      · exact trivial
      · exact ofMembers _ _ _ more

theorem taken_of_read {t : Text} {tree : Tree} (h : read t = some tree) : tree.Taken := by
  unfold read at h
  split at h
  · rename_i found
    split_ifs at h
    cases h
    exact (readers_taken _).1 _ _ _ found
  · cases h

theorem digitsAfter_head (c : Nat) (lead t : Text) :
    ∀ d ∈ (digitsAfter (c :: lead) t).1.head?, d = c := by
  unfold digitsAfter
  split
  · simp
  · intro d head
    exact (Option.some.inj head).symm

theorem fractionPart_head (t : Text) : ∀ d ∈ (fractionPart t).1.head?, d = 0x2e := by
  cases t with
  | nil => simp [fractionPart]
  | cons c t =>
    rw [fractionPart_cons]
    split_ifs
    · exact digitsAfter_head _ _ _
    · simp

theorem exponentPart_head (t : Text) : ∀ d ∈ (exponentPart t).1.head?, d = 0x65 ∨ d = 0x45 := by
  cases t with
  | nil => simp [exponentPart]
  | cons e t =>
    rw [exponentPart_cons]
    split_ifs with letter
    · intro d head
      have same : d = e := by
        unfold exponentDigits at head
        split at head
        · exact digitsAfter_head _ _ _ d head
        · split_ifs at head
          · exact digitsAfter_head _ _ _ d head
          · exact digitsAfter_head _ _ _ d head
      exact same ▸ letter
    · simp

theorem digits_of_unsigned {t s rest : Text} (read : unsigned t = some (s, rest))
    (integer : s.all (fun c => isDigit c || c == 0x2d) = true) : ∀ c ∈ s, isDigit c = true := by
  have none_ : ∀ (part : Text) (other : Nat → Prop), (∀ c ∈ part, isDigit c = true ∨ c = 0x2d) →
      (∀ c ∈ part.head?, other c) → (∀ c, other c → isDigit c = false ∧ c ≠ 0x2d) → part = [] := by
    intro part other all head outside
    cases part with
    | nil => rfl
    | cons c part =>
      obtain ⟨noDigit, noSign⟩ := outside c (head c rfl)
      rcases all c List.mem_cons_self with digit | sign
      · rw [noDigit] at digit
        cases digit
      · exact absurd sign noSign
  cases t with
  | nil => cases read
  | cons d t =>
    have whole : ∃ whole : Text × Text, (∀ c ∈ whole.1, isDigit c = true) ∧
        s = whole.1 ++ (fractionPart whole.2).1 ++ (exponentPart (fractionPart whole.2).2).1 := by
      simp only [unsigned] at read
      split_ifs at read with other leads
      all_goals
        have digit : isDigit d = true := by simpa using other
        cases read
      · exact ⟨([d], t), by simpa using digit, rfl⟩
      · refine ⟨Prod.map (fun ds => d :: ds) id (digits t), ?_, rfl⟩
        exact List.forall_mem_cons.mpr ⟨digit, fun c member => List.mem_takeWhile_imp member⟩
    obtain ⟨whole, numeral, rfl⟩ := whole
    have all : ∀ c ∈ whole.1 ++ (fractionPart whole.2).1 ++ (exponentPart (fractionPart whole.2).2).1,
        isDigit c = true ∨ c = 0x2d := by
      simpa [or_imp, forall_and] using integer
    rw [List.forall_mem_append, List.forall_mem_append] at all
    have fraction := none_ _ _ all.1.2 (fractionPart_head _) (by rintro c rfl; decide)
    have exponent := none_ _ _ all.2 (exponentPart_head _) (by rintro c (rfl | rfl) <;> decide)
    rw [exponent, fraction, List.append_nil, List.append_nil]
    exact numeral

theorem decimal_of_integer {s : Text} (taken : NumberTaken s)
    (integer : s.all (fun c => isDigit c || c == 0x2d) = true)
    (positive : (decimal s).negative = false) : (decimal s).exponent = 0 := by
  obtain ⟨t, rest, read⟩ := taken
  have unsign : s.head? ≠ some 0x2d := by simpa [decimal] using positive
  have digit : ∀ c ∈ s, isDigit c = true := by
    rw [number_eq] at read
    cases found : nonFinite.find? (fun w => w.isPrefixOf t) with
    | some w =>
      rw [found] at read
      cases read
      have letters : ∀ w ∈ nonFinite, w.all (fun c => isDigit c || c == 0x2d) = false := by decide
      rw [letters s (List.mem_of_find?_eq_some found)] at integer
      cases integer
    | none =>
      rw [found] at read
      cases t with
      | nil => cases read
      | cons c t =>
        simp only [signed] at read
        split_ifs at read
        · obtain ⟨⟨s', rest'⟩, -, same⟩ := Option.map_eq_some_iff.mp read
          cases same
          exact absurd rfl unsign
        · exact digits_of_unsigned read integer
  have all : digits s = (s, []) := by
    rw [digits, List.takeWhile_eq_self_iff.mpr digit, List.dropWhile_eq_nil_iff.mpr digit]
  simp only [decimal, if_neg unsign, all]
  rfl

/-- The code units of a code point. -/
def utf16Code (c : Nat) : Text :=
  if c < 0x10000 then [c] else [0xd800 + (c - 0x10000) / 0x400, 0xdc00 + (c - 0x10000) % 0x400]

theorem utf16Code_basic {c : Nat} (basic : c < 0x10000) : utf16Code c = [c] := if_pos basic

theorem utf16Code_respelling : Respelling utf16Code where
  ascii c low := utf16Code_basic (by omega)
  outside c high := by
    unfold utf16Code
    split_ifs
    · exact ⟨c, [], rfl, high, by simp⟩
    · exact ⟨_, _, rfl, by omega, by simp; omega⟩

theorem mem_utf16Code {c u : Nat} (member : u ∈ utf16Code c) : u = c ∨ 0xd800 ≤ u := by
  unfold utf16Code at member
  split_ifs at member
  · exact .inl (List.mem_singleton.mp member)
  · simp only [List.mem_cons, List.not_mem_nil, or_false] at member
    omega

theorem pieces_plain {c : Nat} (h : c ≠ backslash) (s : Text) :
    pieces (c :: s) = (c, false) :: pieces s := by
  rw [pieces]
  · intro h₁ h₂ h₃ h₄ s' same
    exact absurd same h
  · intro e s' same
    exact absurd same h

theorem unescape_append {plain : Text} (noEscape : ∀ c ∈ plain, c ≠ backslash) (s : Text) :
    unescape (plain ++ s) = plain ++ unescape s := by
  induction plain with
  | nil => rfl
  | cons c plain ih =>
    rw [List.cons_append, unescape_plain (noEscape c List.mem_cons_self),
      ih (fun d hd => noEscape d (List.mem_cons_of_mem _ hd)), List.cons_append]

theorem simpleEscapes_spec : ∀ e ∈ simpleEscapes, e ≠ 0x75 ∧ e < 0x80 ∧ simpleEscape e < 0x80 := by
  decide

theorem hexCode_lt {h₁ h₂ h₃ h₄ : Nat} (hex : ∀ d ∈ [h₁, h₂, h₃, h₄], isHexDigit d = true) :
    hexCode h₁ h₂ h₃ h₄ < 0x10000 := by
  have digit : ∀ d, isHexDigit d = true → hexValue d < 16 := by
    intro d hd
    simp only [isHexDigit, isDigit, Bool.or_eq_true, Bool.and_eq_true, decide_eq_true_eq] at hd
    unfold hexValue
    split_ifs <;> omega
  simp only [List.forall_mem_cons] at hex
  have first := digit _ hex.1
  have second := digit _ hex.2.1
  have third := digit _ hex.2.2.1
  have fourth := digit _ hex.2.2.2.1
  unfold hexCode
  omega

theorem unescape_respell {s : Text} (spelled : Spelled s) :
    unescape (respell utf16Code s) = respell utf16Code ((pieces s).map Prod.fst) := by
  induction spelled with
  | nil => rfl
  | @plain c s notQuote notBackslash printed _ ih =>
    have units : ∀ u ∈ utf16Code c, u ≠ backslash := by
      rintro u member rfl
      rcases mem_utf16Code member with same | high
      · exact notBackslash same.symm
      · exact absurd high (by decide)
    rw [respell, List.flatMap_cons, unescape_append units, pieces_plain notBackslash, List.map_cons,
      respell, List.flatMap_cons]
    exact congrArg (utf16Code c ++ ·) ih
  | @simple e s member _ ih =>
    obtain ⟨notU, low, denotes⟩ := simpleEscapes_spec e member
    have escape : unescape (backslash :: e :: respell utf16Code s) =
        simpleEscape e :: unescape (respell utf16Code s) := by
      rw [backslash, unescape]
      intro h₁ h₂ h₃ h₄ s' same
      exact absurd same notU
    have piece : pieces (backslash :: e :: s) = (simpleEscape e, false) :: pieces s := by
      rw [backslash, pieces]
      intro h₁ h₂ h₃ h₄ s' same
      exact absurd same notU
    rw [utf16Code_respelling.cons_ascii (by decide), utf16Code_respelling.cons_ascii low, escape, ih,
      piece, List.map_cons, utf16Code_respelling.cons_ascii denotes]
  | @hex digits s four hex _ ih =>
    have ascii : respell utf16Code digits = digits :=
      utf16Code_respelling.ascii_text (fun d member => Respelling.isHexDigit_ascii d (hex d member))
    rw [utf16Code_respelling.cons_ascii (by decide), utf16Code_respelling.cons_ascii (by decide),
      respell_append, ascii]
    obtain ⟨h₁, h₂, h₃, h₄, rfl⟩ : ∃ h₁ h₂ h₃ h₄, digits = [h₁, h₂, h₃, h₄] := by
      obtain ⟨h₁, rest, rfl, three⟩ := List.length_eq_succ_iff.mp four
      obtain ⟨h₂, h₃, h₄, rfl⟩ := List.length_eq_three.mp three
      exact ⟨h₁, h₂, h₃, h₄, rfl⟩
    simp only [List.cons_append, List.nil_append, backslash, unescape, pieces, List.map_cons, ih]
    rw [respell, respell, List.flatMap_cons, utf16Code_basic (hexCode_lt hex)]
    rfl

theorem joinPairs_utf16 (ps : List (Nat × Bool)) :
    respell utf16Code (joinPairs ps) = respell utf16Code (ps.map Prod.fst) := by
  fun_induction joinPairs ps with
  | case1 => rfl
  | case2 high low s pair ih =>
    simp only [isHigh, isLow, Bool.and_eq_true, decide_eq_true_eq] at pair
    have first : utf16Code high = [high] := utf16Code_basic (by omega)
    have second : utf16Code low = [low] := utf16Code_basic (by omega)
    have both : utf16Code (0x10000 + (high - 0xd800) * 0x400 + (low - 0xdc00)) = [high, low] := by
      rw [utf16Code, if_neg (by omega), List.cons.injEq, List.cons.injEq]
      exact ⟨by omega, by omega, rfl⟩
    simp only [respell, List.map_cons, List.flatMap_cons, first, second, both] at ih ⊢
    rw [ih]
    rfl
  | case3 high low s apart ih =>
    simp only [respell, List.map_cons, List.flatMap_cons] at ih ⊢
    rw [ih]
  | case4 c escaped s other ih =>
    simp only [respell, List.map_cons, List.flatMap_cons] at ih ⊢
    rw [ih]

theorem unescape_utf16 {s : Text} (spelled : Spelled s) :
    unescape (respell utf16Code s) = respell utf16Code (points s) := by
  rw [unescape_respell spelled, points, joinPairs_utf16]

def scalarCode (c : Nat) : Text := if c.isValidChar then utf16Code c else [c + 0x110000]

theorem scalarCode_respelling : Respelling scalarCode where
  ascii c low := by
    have valid : c.isValidChar := .inl (by omega)
    rw [scalarCode, if_pos valid, utf16Code_basic (by omega)]
  outside c high := by
    unfold scalarCode
    split_ifs
    · exact utf16Code_respelling.outside c high
    · exact ⟨c + 0x110000, [], rfl, by omega, by simp⟩

theorem scalarCode_append_inj {c d : Nat} {s t : Text}
    (same : scalarCode c ++ s = scalarCode d ++ t) : c = d ∧ s = t := by
  have range : ∀ c : Nat, c.isValidChar → c < 0xd800 ∨ 0xdfff < c ∧ c < 0x110000 := fun _ valid => valid
  unfold scalarCode utf16Code at same
  split_ifs at same with cValid cBasic dValid dBasic dValid dBasic dValid dBasic
  all_goals
    simp only [List.cons_append, List.nil_append, List.cons.injEq] at same
  · exact same
  · have := range c cValid
    have := range d dValid
    omega
  · have := range c cValid
    omega
  · have := range c cValid
    have := range d dValid
    omega
  · have := range c cValid
    have := range d dValid
    exact ⟨by omega, same.2.2⟩
  · have := range c cValid
    omega
  · have := range d dValid
    omega
  · have := range d dValid
    omega
  · exact ⟨by omega, same.2⟩

theorem respell_scalarCode_injective : Function.Injective (respell scalarCode) := by
  have nonempty : ∀ c s, respell scalarCode (c :: s) ≠ [] := by
    intro c s empty
    have longer := scalarCode_respelling.length_le (c :: s)
    rw [empty, List.length_cons] at longer
    exact Nat.not_succ_le_zero _ longer
  intro s t same
  induction s generalizing t with
  | nil =>
    cases t with
    | nil => rfl
    | cons d t => exact absurd same.symm (nonempty d t)
  | cons c s ih =>
    cases t with
    | nil => exact absurd same (nonempty c s)
    | cons d t =>
      obtain ⟨rfl, rest⟩ := scalarCode_append_inj same
      rw [ih rest]

end JsonText
