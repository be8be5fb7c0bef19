import VaidSuite.FromJson
import VaidSuite.Lib.Rounds

/-! The scan for a repeated member name as it runs, over the bytes of the text by index. It
returns on every input, no index is out of bounds, and what it returns is the scan of the text
character by character. -/
namespace VaidSuite.DuplicateScan

open JsonText (Text Tree codes)
open Rounds (Exec loop)

def asChar (c : UInt8) : Char := Char.ofNat c.toNat

def isAsciiWhitespace (c : UInt8) : Bool :=
  c == 0x20 || c == 0x09 || c == 0x0a || c == 0x0c || c == 0x0d

/-- One round of `scanJsonString`, from the text so far and the index. -/
def stringRound (b : Bytes) : List Char × Nat →
    Exec ((List Char × Nat) ⊕ Option (List Char × Nat))
  | (out, i) =>
    if i < b.length then
      (Exec.index b i).bind (fun c =>
        if c = 0x22 then .returned (.inr (some (out, i + 1)))
        else if c = 0x5c then
          if b.length ≤ i + 1 then .returned (.inr none)
          else (Exec.index b (i + 1)).bind (fun e =>
            .returned (.inl (out ++ ['\\', asChar e], i + 2)))
        else .returned (.inl (out ++ [asChar c], i + 1)))
    else .returned (.inr none)

/-- The string whose opening quote is at `start`, and the index past its closing quote. -/
def scanJsonString (rounds : Nat) (b : Bytes) (start : Nat) : Exec (Option (List Char × Nat)) :=
  loop (stringRound b) rounds ([], start + 1)

def spaceRound (b : Bytes) (j : Nat) : Exec (Nat ⊕ Nat) :=
  if j < b.length then
    (Exec.index b j).bind (fun c =>
      .returned (if isAsciiWhitespace c then .inl (j + 1) else .inr j))
  else .returned (.inr j)

/-- Is the next byte that is no white space a colon? -/
def isKey (rounds : Nat) (b : Bytes) (next : Nat) : Exec Bool :=
  (loop (spaceRound b) rounds next).bind (fun j =>
    if j < b.length then (Exec.index b j).bind (fun c => .returned (c == 0x3a))
    else .returned false)

/-- The names seen in each open object, and `none` for an open array, innermost first. -/
abbrev Stack := List (Option (List (List Char)))

/-- The scan goes on behind a string. A name counts in the innermost object, if one is open. -/
def afterString (rounds : Nat) (b : Bytes) (stack : Stack) :
    Option (List Char × Nat) → Exec ((Nat × Stack) ⊕ Bool)
  -- an unterminated string is not this check's error to report
  | none => .returned (.inr false)
  | some (text, next) =>
    (isKey rounds b next).bind (fun key =>
      if key then
        match stack with
        | some seen :: outer =>
          if text ∈ seen then .returned (.inr true)
          else .returned (.inl (next, some (text :: seen) :: outer))
        | _ => .returned (.inl (next, stack))
      else .returned (.inl (next, stack)))

def scanRound (rounds : Nat) (b : Bytes) : Nat × Stack → Exec ((Nat × Stack) ⊕ Bool)
  | (i, stack) =>
    if i < b.length then
      (Exec.index b i).bind (fun c =>
        if c = 0x7b then .returned (.inl (i + 1, some [] :: stack))
        else if c = 0x5b then .returned (.inl (i + 1, none :: stack))
        else if c = 0x7d ∨ c = 0x5d then .returned (.inl (i + 1, stack.tail))
        else if c = 0x22 then (scanJsonString rounds b i).bind (afterString rounds b stack)
        else .returned (.inl (i + 1, stack)))
    else .returned (.inr false)

def hasDuplicateMemberNames (rounds : Nat) (b : Bytes) : Exec Bool :=
  loop (scanRound rounds b) rounds (0, [])

/-- The bytes from the index on, as codes. -/
def behind (b : Bytes) (i : Nat) : Text := (b.drop i).map UInt8.toNat

theorem behind_cons {b : Bytes} {i : Nat} (inside : i < b.length) :
    ∃ c, b.drop i = c :: b.drop (i + 1) ∧ behind b i = c.toNat :: behind b (i + 1) := by
  have here := List.drop_eq_getElem_cons inside
  exact ⟨b[i], here, by rw [behind, here, List.map_cons]; rfl⟩

theorem behind_outside {b : Bytes} {i : Nat} (outside : ¬ i < b.length) : behind b i = [] := by
  rw [behind, List.drop_eq_nil_of_le (Nat.le_of_not_lt outside), List.map_nil]

theorem length_behind (b : Bytes) (i : Nat) : (behind b i).length = b.length - i := by
  rw [behind, List.length_map, List.length_drop]

theorem behind_of_suffix {b : Bytes} {i : Nat} {rest : Text} (suffix : rest <:+ behind b i) :
    behind b (b.length - rest.length) = rest := by
  have whole : rest <:+ b.map UInt8.toNat := by
    rw [behind, List.map_drop] at suffix
    exact suffix.trans (List.drop_suffix i _)
  have found := List.suffix_iff_eq_drop.mp whole
  rw [List.length_map] at found
  rw [behind, List.map_drop, ← found]

theorem code_eq (c k : UInt8) : (c.toNat = k.toNat) = (c = k) := propext UInt8.toNat_inj

/-- What `scanJsonString` returns from a state of its loop. -/
def stringValue (b : Bytes) (s : List Char × Nat) : Option (List Char × Nat) :=
  (DuplicateNames.scanJsonString (behind b s.2)).map
    (fun r => (s.1 ++ r.1.map Char.ofNat, b.length - r.2.length))

theorem stringRound_spec (b : Bytes) (s : List Char × Nat) :
    stringRound b s = .returned (.inr (stringValue b s)) ∨
      ∃ s', stringRound b s = .returned (.inl s') ∧ b.length - s'.2 < b.length - s.2 ∧
        stringValue b s' = stringValue b s := by
  obtain ⟨out, i⟩ := s
  by_cases inside : i < b.length
  · obtain ⟨c, here, codes⟩ := behind_cons inside
    have read : Exec.index b i = .returned c := Exec.index_of_drop here
    have rest : (behind b (i + 1)).length = b.length - (i + 1) := length_behind b (i + 1)
    simp only [stringRound, stringValue, if_pos inside, read, Exec.returned_bind, codes,
      DuplicateNames.scanJsonString_cons,
      show (c.toNat = JsonText.quote) = (c = 0x22) from code_eq c 0x22,
      show (c.toNat = JsonText.backslash) = (c = 0x5c) from code_eq c 0x5c]
    by_cases ended : c = 0x22
    · have past : b.length - (b.length - (i + 1)) = i + 1 := by omega
      simp only [if_pos ended, Option.map_some, List.map_nil, List.append_nil, rest, past]
      exact .inl trivial
    · by_cases escaped : c = 0x5c
      · subst escaped
        by_cases last : b.length ≤ i + 1
        · simp only [if_neg ended, if_true, if_pos last, behind_outside (Nat.not_lt.mpr last)]
          exact .inl rfl
        · obtain ⟨e, next, codes'⟩ := behind_cons (Nat.lt_of_not_le last)
          have read' : Exec.index b (i + 1) = .returned e := Exec.index_of_drop next
          simp only [if_neg ended, if_true, if_neg last, read', Exec.returned_bind, codes',
            Option.map_map]
          refine .inr ⟨_, rfl, by dsimp only; omega, ?_⟩
          refine congrFun (congrArg Option.map (funext fun r => ?_)) _
          simp [asChar]
      · simp only [if_neg ended, if_neg escaped, Option.map_map]
        refine .inr ⟨_, rfl, by dsimp only; omega, ?_⟩
        refine congrFun (congrArg Option.map (funext fun r => ?_)) _
        simp [asChar]
  · refine .inl ?_
    simp only [stringRound, stringValue, if_neg inside, behind_outside inside]
    rfl

theorem scanJsonString_returned {b : Bytes} {rounds start : Nat} (enough : b.length < rounds) :
    scanJsonString rounds b start = .returned (stringValue b ([], start + 1)) :=
  Rounds.loop_returned (stringRound_spec b) (Nat.lt_of_le_of_lt (Nat.sub_le _ _) enough)

theorem isAsciiWhitespace_eq (c : UInt8) :
    isAsciiWhitespace c = asciiWhitespace.skips c.toNat := by
  have same : ∀ k : UInt8, (c == k) = (c.toNat == k.toNat) := by
    intro k
    rw [Bool.eq_iff_iff, beq_iff_eq, beq_iff_eq, UInt8.toNat_inj]
  simp only [isAsciiWhitespace, same]
  rfl

/-- The index of the first byte from `j` on that is no white space. -/
def spaceValue (b : Bytes) (j : Nat) : Nat :=
  j + ((behind b j).takeWhile asciiWhitespace.skips).length

theorem spaceRound_spec (b : Bytes) (j : Nat) :
    spaceRound b j = .returned (.inr (spaceValue b j)) ∨
      ∃ j', spaceRound b j = .returned (.inl j') ∧ b.length - j' < b.length - j ∧
        spaceValue b j' = spaceValue b j := by
  by_cases inside : j < b.length
  · obtain ⟨c, here, codes⟩ := behind_cons inside
    have read : Exec.index b j = .returned c := Exec.index_of_drop here
    simp only [spaceRound, spaceValue, if_pos inside, read, Exec.returned_bind, codes,
      List.takeWhile_cons, isAsciiWhitespace_eq]
    by_cases skipped : asciiWhitespace.skips c.toNat = true
    · simp only [if_pos skipped, List.length_cons]
      exact .inr ⟨_, rfl, by omega, by omega⟩
    · simp only [if_neg skipped]
      exact .inl rfl
  · refine .inl ?_
    simp only [spaceRound, spaceValue, if_neg inside, behind_outside inside]
    rfl

theorem behind_spaceValue (b : Bytes) (j : Nat) :
    behind b (spaceValue b j) = (behind b j).dropWhile asciiWhitespace.skips := by
  have further : behind b (spaceValue b j) =
      (behind b j).drop ((behind b j).takeWhile asciiWhitespace.skips).length := by
    rw [spaceValue, behind, behind, ← List.map_drop, List.drop_drop]
  generalize behind b j = t at further ⊢
  calc behind b (spaceValue b j)
      = (t.takeWhile asciiWhitespace.skips ++ t.dropWhile asciiWhitespace.skips).drop
          (t.takeWhile asciiWhitespace.skips).length := by
        rw [List.takeWhile_append_dropWhile, further]
    _ = t.dropWhile asciiWhitespace.skips := List.drop_left

theorem isKey_returned {b : Bytes} {rounds next : Nat} (enough : b.length < rounds) :
    isKey rounds b next = .returned (DuplicateNames.isName asciiWhitespace (behind b next)) := by
  have skips := Rounds.loop_returned (spaceRound_spec b)
    (Nat.lt_of_le_of_lt (Nat.sub_le _ _) enough : b.length - next < rounds)
  rw [isKey, skips, Exec.returned_bind, DuplicateNames.isName, ← behind_spaceValue]
  by_cases inside : spaceValue b next < b.length
  · obtain ⟨c, here, codes⟩ := behind_cons inside
    have colon : (c == 0x3a) = (some c.toNat == some JsonText.colon) := by
      rw [Bool.eq_iff_iff, beq_iff_eq, beq_iff_eq, Option.some_inj]
      exact (iff_of_eq (code_eq c 0x3a)).symm
    rw [if_pos inside, Exec.index_of_drop here, Exec.returned_bind, codes, List.head?_cons, colon]
  · rw [if_neg inside, behind_outside inside]
    rfl

def codesOf (stack : Stack) : List (Option (List Text)) :=
  stack.map (Option.map (List.map (List.map Char.toNat)))

def scanValue (b : Bytes) (s : Nat × Stack) : Bool :=
  DuplicateNames.scanFrom asciiWhitespace (codesOf s.2) (behind b s.1)

theorem toNat_asChar (c : UInt8) : (asChar c).toNat = c.toNat := by
  have valid : c.toNat.isValidChar := .inl (Nat.lt_trans c.toNat_lt (by decide))
  rw [asChar, Char.ofNat, dif_pos valid]
  rfl

theorem codes_name {b : Bytes} {i : Nat} {name rest : Text}
    (read : DuplicateNames.scanJsonString (behind b i) = some (name, rest)) :
    (name.map Char.ofNat).map Char.toNat = name := by
  have written := DuplicateNames.of_scanJsonString read
  rw [List.map_map]
  refine (List.map_congr_left (fun n member => ?_)).trans (List.map_id name)
  have held : n ∈ behind b i := by
    rw [written]
    exact List.mem_append_left _ member
  obtain ⟨c, -, rfl⟩ := List.mem_map.mp held
  exact toNat_asChar c

theorem mem_codes {text : List Char} {seen : List (List Char)} :
    text.map Char.toNat ∈ seen.map (List.map Char.toNat) ↔ text ∈ seen :=
  List.mem_map_of_injective (List.map_injective_iff.mpr (fun _ _ same => Char.toNat_inj.mp same))

theorem afterString_spec {b : Bytes} {rounds : Nat} (enough : b.length < rounds) (i : Nat)
    (inside : i < b.length) (stack : Stack) :
    afterString rounds b stack (stringValue b ([], i + 1)) = .returned (.inr
        (DuplicateNames.scanFrom asciiWhitespace (codesOf stack)
          (JsonText.quote :: behind b (i + 1)))) ∨
      ∃ s', afterString rounds b stack (stringValue b ([], i + 1)) = .returned (.inl s') ∧
        b.length - s'.1 < b.length - i ∧
        scanValue b s' = DuplicateNames.scanFrom asciiWhitespace (codesOf stack)
          (JsonText.quote :: behind b (i + 1)) := by
  have scan : DuplicateNames.scanFrom asciiWhitespace (codesOf stack)
      (JsonText.quote :: behind b (i + 1)) = _ := DuplicateNames.scanFrom_cons _ _ _
  rw [if_neg (by decide), if_neg (by decide), if_neg (by decide), if_pos rfl] at scan
  rw [scan, stringValue]
  cases read : DuplicateNames.scanJsonString (behind b (i + 1)) with
  | none => exact .inl rfl
  | some r =>
    obtain ⟨name, rest⟩ := r
    have suffix : rest <:+ behind b (i + 1) := by
      rw [DuplicateNames.of_scanJsonString read]
      exact (List.suffix_cons _ _).trans (List.suffix_append _ _)
    have shorter := DuplicateNames.scanJsonString_progress read
    rw [length_behind] at shorter
    have next : behind b (b.length - rest.length) = rest := behind_of_suffix suffix
    have progress : b.length - (b.length - rest.length) < b.length - i := by omega
    simp only [Option.map_some, afterString, isKey_returned enough, next, Exec.returned_bind,
      List.nil_append]
    cases key : DuplicateNames.isName asciiWhitespace rest with
    | false =>
      simp only [Bool.false_eq_true, if_false]
      exact .inr ⟨_, rfl, progress, by rw [scanValue, next]⟩
    | true =>
      simp only [if_true]
      rcases stack with _ | ⟨_ | seen, outer⟩
      · exact .inr ⟨_, rfl, progress, by rw [scanValue, next]; rfl⟩
      · exact .inr ⟨_, rfl, progress, by rw [scanValue, next]; rfl⟩
      · have same : name ∈ seen.map (List.map Char.toNat) ↔ name.map Char.ofNat ∈ seen := by
          rw [← mem_codes, codes_name read]
        have stack : codesOf (some seen :: outer) =
            some (seen.map (List.map Char.toNat)) :: codesOf outer := rfl
        simp only [stack, same]
        by_cases repeated : name.map Char.ofNat ∈ seen
        · simp only [if_pos repeated]
          exact .inl trivial
        · simp only [if_neg repeated]
          have grown : codesOf (some (name.map Char.ofNat :: seen) :: outer) =
              some (name :: seen.map (List.map Char.toNat)) :: codesOf outer := by
            simp only [codesOf, List.map_cons, Option.map_some, codes_name read]
          exact .inr ⟨_, rfl, progress, by rw [scanValue, next, grown]⟩

theorem scanRound_spec {b : Bytes} {rounds : Nat} (enough : b.length < rounds) (s : Nat × Stack) :
    scanRound rounds b s = .returned (.inr (scanValue b s)) ∨
      ∃ s', scanRound rounds b s = .returned (.inl s') ∧ b.length - s'.1 < b.length - s.1 ∧
        scanValue b s' = scanValue b s := by
  obtain ⟨i, stack⟩ := s
  by_cases inside : i < b.length
  · obtain ⟨c, here, codes⟩ := behind_cons inside
    have read : Exec.index b i = .returned c := Exec.index_of_drop here
    by_cases string : c = 0x22
    · subst string
      have found := afterString_spec enough i inside stack
      simp only [scanRound, if_pos inside, read, Exec.returned_bind, scanJsonString_returned enough]
      rw [scanValue, codes]
      exact found
    · simp only [scanRound, scanValue, if_pos inside, read, Exec.returned_bind, codes,
        DuplicateNames.scanFrom_cons,
        show (c.toNat = JsonText.openBrace) = (c = 0x7b) from code_eq c 0x7b,
        show (c.toNat = JsonText.openBracket) = (c = 0x5b) from code_eq c 0x5b,
        show (c.toNat = JsonText.closeBrace) = (c = 0x7d) from code_eq c 0x7d,
        show (c.toNat = JsonText.closeBracket) = (c = 0x5d) from code_eq c 0x5d,
        show (c.toNat = JsonText.quote) = (c = 0x22) from code_eq c 0x22, if_neg string]
      have progress : b.length - (i + 1) < b.length - i := by omega
      by_cases object : c = 0x7b
      · simp only [if_pos object]
        exact .inr ⟨_, rfl, progress, rfl⟩
      by_cases array : c = 0x5b
      · simp only [if_neg object, if_pos array]
        exact .inr ⟨_, rfl, progress, rfl⟩
      by_cases closes : c = 0x7d ∨ c = 0x5d
      · simp only [if_neg object, if_neg array, if_pos closes]
        exact .inr ⟨_, rfl, progress, by simp only [codesOf, List.map_tail]⟩
      · simp only [if_neg object, if_neg array, if_neg closes]
        exact .inr ⟨_, rfl, progress, rfl⟩
  · refine .inl ?_
    simp only [scanRound, scanValue, if_neg inside, behind_outside inside]
    rfl

/-- On every input the scan returns, after no more rounds of any loop than there are bytes, and
it is the scan character by character. -/
theorem hasDuplicateMemberNames_returned {b : Bytes} {rounds : Nat} (enough : b.length < rounds) :
    hasDuplicateMemberNames rounds b = .returned
      (DuplicateNames.hasDuplicateMemberNames asciiWhitespace (b.map UInt8.toNat)) :=
  Rounds.loop_returned (scanRound_spec enough) (Nat.lt_of_le_of_lt (Nat.sub_le _ _) enough)

def nameBytes (name : Text) : Text := JsonText.respell utf8Code name

/-- Two members of the list have names that `name` does not tell apart. -/
def Repeats {α : Type} (name : Text → α) (members : List (Text × Tree)) : Prop :=
  ∃ (i j : Nat) (m n : Text × Tree), i < j ∧ members[i]? = some m ∧ members[j]? = some n ∧
    name m.1 = name n.1

theorem not_nodup_iff (members : List (Text × Tree)) :
    ¬ (members.map (fun m => id m.1)).Nodup ↔ Repeats id members := by
  rw [List.nodup_iff_getElem?_ne_getElem?]
  simp only [not_forall, List.length_map, List.getElem?_map, ne_eq, not_not]
  constructor
  · rintro ⟨i, j, before, inside, same⟩
    have first := List.getElem?_eq_getElem (Nat.lt_trans before inside)
    have second := List.getElem?_eq_getElem inside
    rw [first, second, Option.map_some, Option.map_some, Option.some_inj] at same
    exact ⟨i, j, members[i], members[j], before, first, second, same⟩
  · rintro ⟨i, j, m, n, before, first, second, same⟩
    obtain ⟨inside, -⟩ := List.getElem?_eq_some_iff.mp second
    exact ⟨i, j, before, inside, by rw [first, second, Option.map_some, Option.map_some, same]⟩

theorem repeats_nameBytes (members : List (Text × Tree)) :
    Repeats nameBytes members ↔ Repeats id members := by
  simp only [Repeats, nameBytes, respell_utf8Code_injective.eq_iff, id]

/-- On every input the scan returns, and no index is out of bounds. Of a well-formed text it
returns `true` exactly when some object, at any depth, has two members whose names are spelled
with the same bytes. -/
theorem scan_exact :
    (∀ b : Bytes, ∃ found, ∀ rounds, b.length < rounds →
      hasDuplicateMemberNames rounds b = .returned found) ∧
    ∀ (json : String) (tree : Tree), JsonText.read (codes json) = some tree →
      ∀ rounds, (utf8 json).length < rounds →
        (hasDuplicateMemberNames rounds (utf8 json) = .returned true ↔
          ∃ members, JsonText.ObjectIn members tree ∧ Repeats nameBytes members) := by
  refine ⟨fun b => ⟨_, fun rounds enough => hasDuplicateMemberNames_returned enough⟩,
    fun json tree wellFormed rounds enough => ?_⟩
  have found : DuplicateNames.hasDuplicateMemberNames asciiWhitespace
      ((utf8 json).map UInt8.toNat) = tree.repeats id :=
    VaidSuite.hasDuplicateMemberNames_eq wellFormed
  rw [hasDuplicateMemberNames_returned enough, found, Exec.returned.injEq, JsonText.repeats_iff]
  simp only [not_nodup_iff, repeats_nameBytes]

section Example

/-- Two values that look like members, and a name with an escaped quote. -/
def lookalikeText : String :=
  String.ofList (objectText [("p", quoted "\\\"a\\\":1"), ("q", quoted "\\\"a\\\":1"),
    ("a\\\"b", ['1'])])

theorem scan_exact_lookalikeText : ∃ tree, JsonText.read (codes lookalikeText) = some tree ∧
    (hasDuplicateMemberNames 1000 (utf8 lookalikeText) = .returned true ↔
      ∃ members, JsonText.ObjectIn members tree ∧ Repeats nameBytes members) := by
  have readable : (JsonText.read (codes lookalikeText)).isSome = true := by
    rw [lookalikeText, codes_ofList]
    decide +kernel
  have short : (utf8 lookalikeText).length < 1000 := by
    rw [lookalikeText, utf8, String.toList_ofList]
    decide +kernel
  obtain ⟨tree, wellFormed⟩ := Option.isSome_iff_exists.mp readable
  exact ⟨tree, wellFormed, scan_exact.2 lookalikeText tree wellFormed 1000 short⟩

end Example

end VaidSuite.DuplicateScan
