import VaidSuite.Lib.JsonUtf16

/-! Strings spelled in printable ASCII. Whatever else a string holds is escaped by the numbers of
its UTF-16 units. -/
namespace JsonText

def lowerHex (d : Nat) : Nat := if d < 10 then 0x30 + d else 0x57 + d

def unitEscape (u : Nat) : Text :=
  backslash :: 0x75 :: [lowerHex (u / 0x1000), lowerHex (u / 0x100 % 0x10), lowerHex (u / 0x10 % 0x10),
    lowerHex (u % 0x10)]

def shortEscapes : List (Nat × Nat) :=
  [(0x08, 0x62), (0x09, 0x74), (0x0a, 0x6e), (0x0c, 0x66), (0x0d, 0x72), (quote, quote),
    (backslash, backslash)]

def asciiEscape (c : Nat) : Text :=
  match shortEscapes.lookup c with
  | some e => [backslash, e]
  | none => if 0x20 ≤ c ∧ c ≤ 0x7e then [c] else (utf16Code c).flatMap unitEscape

def Ascii (t : Text) : Prop := ∀ c ∈ t, c < 0x80

@[simp] theorem ascii_nil : Ascii [] := by simp [Ascii]

@[simp] theorem ascii_cons {c : Nat} {t : Text} : Ascii (c :: t) ↔ c < 0x80 ∧ Ascii t :=
  List.forall_mem_cons

@[simp] theorem ascii_append {s t : Text} : Ascii (s ++ t) ↔ Ascii s ∧ Ascii t := List.forall_mem_append

/-- What stands between the quotes. -/
def asciiSpelling (s : Text) : Text := s.flatMap asciiEscape

theorem lowerHex_spec : ∀ d < 16, isHexDigit (lowerHex d) = true ∧ hexValue (lowerHex d) = d ∧
    lowerHex d < 0x80 := by
  decide

theorem shortEscapes_spec : ∀ e ∈ shortEscapes, e.2 ∈ simpleEscapes ∧ e.2 ≠ 0x75 ∧
    simpleEscape e.2 = e.1 ∧ e.1 < 0x80 ∧ e.2 < 0x80 := by
  decide

theorem unescape_unitEscape {u : Nat} (unit : u < 0x10000) (s : Text) :
    unescape (unitEscape u ++ s) = u :: unescape s := by
  unfold unitEscape backslash
  simp only [List.cons_append, List.nil_append]
  rw [unescape, hexCode, (lowerHex_spec _ (by omega)).2.1, (lowerHex_spec _ (by omega)).2.1,
    (lowerHex_spec _ (by omega)).2.1, (lowerHex_spec _ (by omega)).2.1]
  congr 1
  omega

theorem spelled_unitEscape {u : Nat} (unit : u < 0x10000) {s : Text} (spelled : Spelled s) :
    Spelled (unitEscape u ++ s) := by
  refine @Spelled.hex [lowerHex (u / 0x1000), lowerHex (u / 0x100 % 0x10), lowerHex (u / 0x10 % 0x10),
    lowerHex (u % 0x10)] s rfl (fun d member => ?_) spelled
  simp only [List.mem_cons, List.not_mem_nil, or_false] at member
  rcases member with rfl | rfl | rfl | rfl <;> exact (lowerHex_spec _ (by omega)).1

theorem utf16Code_lt {c u : Nat} (point : c < 0x110000) (member : u ∈ utf16Code c) : u < 0x10000 := by
  unfold utf16Code at member
  split_ifs at member with basic
  · rw [List.mem_singleton.mp member]
    exact basic
  · simp only [List.mem_cons, List.not_mem_nil, or_false] at member
    omega

theorem unescape_unitEscapes {units : Text} (each : ∀ u ∈ units, u < 0x10000) (s : Text) :
    unescape (units.flatMap unitEscape ++ s) = units ++ unescape s := by
  induction units with
  | nil => rfl
  | cons u units ih =>
    rw [List.flatMap_cons, List.append_assoc, unescape_unitEscape (each u List.mem_cons_self),
      ih (fun v member => each v (List.mem_cons_of_mem _ member)), List.cons_append]

theorem spelled_unitEscapes {units : Text} (each : ∀ u ∈ units, u < 0x10000) {s : Text}
    (spelled : Spelled s) : Spelled (units.flatMap unitEscape ++ s) := by
  induction units with
  | nil => exact spelled
  | cons u units ih =>
    rw [List.flatMap_cons, List.append_assoc]
    exact spelled_unitEscape (each u List.mem_cons_self)
      (ih (fun v member => each v (List.mem_cons_of_mem _ member)))

theorem plain_of_lookup {c : Nat} (escaped : shortEscapes.lookup c = none) : c ≠ quote ∧ c ≠ backslash := by
  constructor
  · rintro rfl
    exact absurd escaped (by decide)
  · rintro rfl
    exact absurd escaped (by decide)

theorem unescape_asciiEscape {c : Nat} (point : c < 0x110000) (s : Text) :
    unescape (asciiEscape c ++ s) = utf16Code c ++ unescape s := by
  unfold asciiEscape
  cases escaped : shortEscapes.lookup c with
  | some e =>
    obtain ⟨_, notU, denotes, low, _⟩ := shortEscapes_spec _ (InsertionMap.mem_of_lookup escaped)
    dsimp only at denotes notU low ⊢
    rw [List.cons_append, List.singleton_append, backslash, unescape, denotes, utf16Code_basic (by omega)]
    · rfl
    · intro h₁ h₂ h₃ h₄ s' same
      exact absurd same notU
  | none =>
    dsimp only
    split_ifs with printed
    · rw [utf16Code_basic (by omega)]
      exact unescape_plain (plain_of_lookup escaped).2 s
    · exact unescape_unitEscapes (fun u => utf16Code_lt point) s

theorem spelled_asciiEscape {c : Nat} (point : c < 0x110000) {s : Text} (spelled : Spelled s) :
    Spelled (asciiEscape c ++ s) := by
  unfold asciiEscape
  cases escaped : shortEscapes.lookup c with
  | some e => exact .simple (shortEscapes_spec _ (InsertionMap.mem_of_lookup escaped)).1 spelled
  | none =>
    dsimp only
    split_ifs with printed
    · exact .plain (plain_of_lookup escaped).1 (plain_of_lookup escaped).2 printed.1 spelled
    · exact spelled_unitEscapes (fun u => utf16Code_lt point) spelled

theorem unescape_asciiSpelling {s : Text} (points : ∀ c ∈ s, c < 0x110000) :
    unescape (asciiSpelling s) = respell utf16Code s := by
  induction s with
  | nil => rfl
  | cons c s ih =>
    rw [asciiSpelling, List.flatMap_cons, unescape_asciiEscape (points c List.mem_cons_self), respell,
      List.flatMap_cons]
    exact congrArg (utf16Code c ++ ·) (ih (fun d member => points d (List.mem_cons_of_mem _ member)))

theorem spelled_asciiSpelling {s : Text} (points : ∀ c ∈ s, c < 0x110000) : Spelled (asciiSpelling s) := by
  induction s with
  | nil => exact .nil
  | cons c s ih =>
    rw [asciiSpelling, List.flatMap_cons]
    exact spelled_asciiEscape (points c List.mem_cons_self)
      (ih (fun d member => points d (List.mem_cons_of_mem _ member)))

theorem unitEscape_ascii {u : Nat} (unit : u < 0x10000) : Ascii (unitEscape u) := by
  simp only [unitEscape, ascii_cons]
  exact ⟨by decide, by decide, (lowerHex_spec _ (by omega)).2.2, (lowerHex_spec _ (by omega)).2.2,
    (lowerHex_spec _ (by omega)).2.2, (lowerHex_spec _ (by omega)).2.2, ascii_nil⟩

theorem asciiSpelling_ascii {s : Text} (points : ∀ c ∈ s, c < 0x110000) : Ascii (asciiSpelling s) := by
  intro d member
  obtain ⟨c, inside, member⟩ := List.mem_flatMap.mp member
  unfold asciiEscape at member
  cases escaped : shortEscapes.lookup c with
  | some e =>
    obtain ⟨_, _, _, _, low⟩ := shortEscapes_spec _ (InsertionMap.mem_of_lookup escaped)
    rw [escaped] at member
    rcases List.mem_cons.mp member with rfl | member
    · decide
    · rw [List.mem_singleton.mp member]
      exact low
  | none =>
    rw [escaped] at member
    dsimp only at member
    split_ifs at member with printed
    · rw [List.mem_singleton.mp member]
      omega
    · obtain ⟨u, unit, member⟩ := List.mem_flatMap.mp member
      exact unitEscape_ascii (utf16Code_lt (points c inside) unit) d member

theorem asciiEscape_high {c : Nat} (high : 0x80 ≤ c) : asciiEscape c = (utf16Code c).flatMap unitEscape := by
  unfold asciiEscape
  cases escaped : shortEscapes.lookup c with
  | some e =>
    obtain ⟨_, _, _, low, _⟩ := shortEscapes_spec _ (InsertionMap.mem_of_lookup escaped)
    exact absurd high (Nat.not_le.mpr low)
  | none => exact if_neg (by omega)

theorem asciiSpelling_respell {s : Text} (points : ∀ c ∈ s, c < 0x110000) :
    asciiSpelling (respell utf16Code s) = asciiSpelling s := by
  rw [asciiSpelling, respell, List.flatMap_assoc, asciiSpelling]
  refine List.flatMap_congr (fun c member => ?_)
  have point := points c member
  unfold utf16Code
  split_ifs with basic
  · rw [List.flatMap_singleton]
  · rw [asciiEscape_high (by omega : 0x80 ≤ c), utf16Code, if_neg basic]
    simp only [List.flatMap_cons, List.flatMap_nil]
    rw [asciiEscape_high (by omega), asciiEscape_high (by omega), utf16Code_basic (by omega),
      utf16Code_basic (by omega), List.flatMap_singleton, List.flatMap_singleton]

theorem respell_utf16_injective {s t : Text} (validLeft : ∀ c ∈ s, c.isValidChar)
    (validRight : ∀ c ∈ t, c.isValidChar) (same : respell utf16Code s = respell utf16Code t) : s = t := by
  have scalars : ∀ {u : Text}, (∀ c ∈ u, c.isValidChar) → respell scalarCode u = respell utf16Code u :=
    fun valid => List.flatMap_congr (fun c member => if_pos (valid c member))
  apply respell_scalarCode_injective
  rw [scalars validLeft, same, scalars validRight]

end JsonText
