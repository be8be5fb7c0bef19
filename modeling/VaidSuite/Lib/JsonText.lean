import Mathlib.Data.List.Nodup
import VaidSuite.Lib.InsertionMap

/-! JSON texts, as lists of character codes, and the trees that they spell. A tree keeps
the spelling of every string and number and every member of every object, so nothing is
lost that a reader may merge, round or drop. -/
namespace JsonText

abbrev Text := List Nat

def codes (s : String) : Text := s.toList.map Char.toNat

inductive Tree where
  | null
  | bool (b : Bool)
  | num (spelling : Text)
  | str (spelling : Text)
  | arr (items : List Tree)
  | obj (members : List (Text × Tree))

def quote : Nat := 0x22
def backslash : Nat := 0x5c
def comma : Nat := 0x2c
def colon : Nat := 0x3a
def openBracket : Nat := 0x5b
def closeBracket : Nat := 0x5d
def openBrace : Nat := 0x7b
def closeBrace : Nat := 0x7d

def isSpace (c : Nat) : Bool := c == 0x20 || c == 0x09 || c == 0x0a || c == 0x0d
def isDigit (c : Nat) : Bool := 0x30 ≤ c && c ≤ 0x39

def isHexDigit (c : Nat) : Bool :=
  isDigit c || (0x41 ≤ c && c ≤ 0x46) || (0x61 ≤ c && c ≤ 0x66)

def skipSpace (t : Text) : Text := t.dropWhile isSpace

/-- The characters that stand for themselves or a control character after a backslash. -/
def simpleEscapes : Text := codes "\"\\/bfnrt"

/-- A string, from behind its opening quote to behind its closing one. -/
def string : Text → Option (Text × Text)
  | [] => none
  | c :: t =>
    if c = quote then some ([], t)
    else if c = backslash then
      match t with
      | [] => none
      | e :: t =>
        if e ∈ simpleEscapes then (string t).map (Prod.map (fun s => c :: e :: s) id)
        else match t with
          | h₁ :: h₂ :: h₃ :: h₄ :: t =>
            if e = 0x75 ∧ [h₁, h₂, h₃, h₄].all isHexDigit = true then
              (string t).map (Prod.map (fun s => c :: e :: h₁ :: h₂ :: h₃ :: h₄ :: s) id)
            else none
          | _ => none
    else if c < 0x20 then none
    else (string t).map (Prod.map (fun s => c :: s) id)

/-- A part of the text, and the rest. -/
def digits (t : Text) : Text × Text := (t.takeWhile isDigit, t.dropWhile isDigit)

/-- Digits behind `lead`, where there is one. -/
def digitsAfter (lead t : Text) : Text × Text :=
  match digits t with
  | ([], _) => ([], lead ++ t)
  | (ds, rest) => (lead ++ ds, rest)

def fractionPart : Text → Text × Text
  | 0x2e :: t => digitsAfter [0x2e] t
  | t => ([], t)

def exponentPart : Text → Text × Text
  | e :: t =>
    if e = 0x65 ∨ e = 0x45 then
      match t with
      | 0x2b :: t => digitsAfter [e, 0x2b] t
      | 0x2d :: t => digitsAfter [e, 0x2d] t
      | t => digitsAfter [e] t
    else ([], e :: t)
  | [] => ([], [])

/-- The whole part, the fraction and the exponent of a number, without its sign. -/
def unsigned : Text → Option (Text × Text)
  | c :: t =>
    if !isDigit c then none
    else
      let whole := if c = 0x30 then ([c], t) else Prod.map (fun ds => c :: ds) id (digits t)
      let fraction := fractionPart whole.2
      let exponent := exponentPart fraction.2
      some (whole.1 ++ fraction.1 ++ exponent.1, exponent.2)
  | [] => none

/-- The words that stand for numbers without being JSON. -/
def nonFinite : List Text := [codes "NaN", codes "Infinity", codes "-Infinity"]

def number (t : Text) : Option (Text × Text) :=
  match nonFinite.find? (fun w => w.isPrefixOf t) with
  | some w => some (w, t.drop w.length)
  | none =>
    match t with
    | 0x2d :: t => (unsigned t).map (Prod.map (fun s => 0x2d :: s) id)
    | t => unsigned t

/-- The text behind a word. -/
def after (w t : Text) : Option Text := if w.isPrefixOf t then some (t.drop w.length) else none

def scalar (t : Text) : Option (Tree × Text) :=
  match after (codes "null") t, after (codes "true") t, after (codes "false") t with
  | some rest, _, _ => some (.null, rest)
  | _, some rest, _ => some (.bool true, rest)
  | _, _, some rest => some (.bool false, rest)
  | none, none, none => (number t).map (Prod.map .num id)

mutual

/-- A value at the start of the text, and the rest. The fuel bounds the nesting and the
lengths; that of the text is enough. -/
def value : Nat → Text → Option (Tree × Text)
  | 0, _ => none
  | fuel + 1, t =>
    match t with
    | [] => none
    | c :: rest =>
      if c = quote then (string rest).map (Prod.map .str id)
      else if c = openBracket then
        match skipSpace rest with
        | [] => none
        | d :: inner =>
          if d = closeBracket then some (.arr [], inner)
          else (items fuel (d :: inner)).map (Prod.map .arr id)
      else if c = openBrace then
        match skipSpace rest with
        | [] => none
        | d :: inner =>
          if d = closeBrace then some (.obj [], inner)
          else (members fuel (d :: inner)).map (Prod.map .obj id)
      else scalar (c :: rest)

def items : Nat → Text → Option (List Tree × Text)
  | 0, _ => none
  | fuel + 1, t => do
    let (item, rest) ← value fuel t
    match skipSpace rest with
    | [] => none
    | c :: rest =>
      if c = closeBracket then return ([item], rest)
      else if c = comma then
        let (more, rest) ← items fuel (skipSpace rest)
        return (item :: more, rest)
      else none

def members : Nat → Text → Option (List (Text × Tree) × Text)
  | 0, _ => none
  | fuel + 1, t => do
    let c :: t := t | none
    if c ≠ quote then none
    let (name, rest) ← string t
    let c :: rest := skipSpace rest | none
    if c ≠ colon then none
    let (v, rest) ← value fuel (skipSpace rest)
    match skipSpace rest with
    | [] => none
    | c :: rest =>
      if c = closeBrace then return ([(name, v)], rest)
      else if c = comma then
        let (more, rest) ← members fuel (skipSpace rest)
        return ((name, v) :: more, rest)
      else none

end

/-- The tree of a whole text. -/
def read (t : Text) : Option Tree :=
  match value (2 * (skipSpace t).length + 1) (skipSpace t) with
  | some (tree, rest) => if (skipSpace rest).isEmpty then some tree else none
  | none => none

def hexValue (c : Nat) : Nat :=
  if c ≤ 0x39 then c - 0x30 else if c ≤ 0x46 then c - 0x37 else c - 0x57

def hexCode (h₁ h₂ h₃ h₄ : Nat) : Nat :=
  ((hexValue h₁ * 16 + hexValue h₂) * 16 + hexValue h₃) * 16 + hexValue h₄

/-- What a backslash and `e` stand for. -/
def simpleEscape (e : Nat) : Nat :=
  if e = 0x62 then 0x08 else if e = 0x66 then 0x0c else if e = 0x6e then 0x0a
  else if e = 0x72 then 0x0d else if e = 0x74 then 0x09 else e

/-- The character codes that a string spells. An escaped surrogate is one of its own. -/
def unescape : Text → Text
  | [] => []
  | 0x5c :: 0x75 :: h₁ :: h₂ :: h₃ :: h₄ :: s => hexCode h₁ h₂ h₃ h₄ :: unescape s
  | 0x5c :: e :: s => simpleEscape e :: unescape s
  | c :: s => c :: unescape s

def isHigh (c : Nat) : Bool := 0xd800 ≤ c && c < 0xdc00
def isLow (c : Nat) : Bool := 0xdc00 ≤ c && c < 0xe000

/-- The character codes that a string spells, and which of them are escaped by number. -/
def pieces : Text → List (Nat × Bool)
  | [] => []
  | 0x5c :: 0x75 :: h₁ :: h₂ :: h₃ :: h₄ :: s => (hexCode h₁ h₂ h₃ h₄, true) :: pieces s
  | 0x5c :: e :: s => (simpleEscape e, false) :: pieces s
  | c :: s => (c, false) :: pieces s

/-- An escaped pair of surrogates is one code point. -/
def joinPairs : List (Nat × Bool) → Text
  | [] => []
  | (high, true) :: (low, true) :: s =>
    if isHigh high && isLow low then
      (0x10000 + (high - 0xd800) * 0x400 + (low - 0xdc00)) :: joinPairs s
    else high :: joinPairs ((low, true) :: s)
  | (c, _) :: s => c :: joinPairs s

def points (s : Text) : Text := joinPairs (pieces s)

/-- A decimal number: its sign, its digits as an integer, and the power of ten. -/
structure Decimal where
  negative : Bool
  digits : Nat
  exponent : Int

def natOf (ds : Text) : Nat := ds.foldl (fun n d => 10 * n + (d - 0x30)) 0

def exponentOf : Text → Int
  | _ :: 0x2d :: ds => -natOf ds
  | _ :: 0x2b :: ds => natOf ds
  | _ :: ds => natOf ds
  | [] => 0

/-- The number that a spelling denotes. -/
def decimal (s : Text) : Decimal :=
  let unsigned := if s.head? = some 0x2d then s.tail else s
  let (whole, rest) := digits unsigned
  let (fraction, rest) := match rest with
    | 0x2e :: rest => digits rest
    | rest => ([], rest)
  ⟨s.head? = some 0x2d, natOf (whole ++ fraction), exponentOf rest - fraction.length⟩

mutual

/-- Every number of the tree is one of JSON. -/
def Tree.standard : Tree → Bool
  | .num s => !nonFinite.contains s
  | .arr items => standardItems items
  | .obj members => standardMembers members
  | .null | .bool _ | .str _ => true

def standardItems : List Tree → Bool
  | [] => true
  | t :: items => t.standard && standardItems items

def standardMembers : List (Text × Tree) → Bool
  | [] => true
  | (_, t) :: members => t.standard && standardMembers members

end

mutual

def Tree.numbers : Tree → List Text
  | .num s => [s]
  | .arr items => numbersOfItems items
  | .obj members => numbersOfMembers members
  | .null | .bool _ | .str _ => []

def numbersOfItems : List Tree → List Text
  | [] => []
  | t :: items => t.numbers ++ numbersOfItems items

def numbersOfMembers : List (Text × Tree) → List Text
  | [] => []
  | (_, t) :: members => t.numbers ++ numbersOfMembers members

end

section Names

universe u

variable {α : Type u} [DecidableEq α] (name : Text → α)

mutual

/-- Some object, at any depth, has two members whose names denote the same. -/
def Tree.repeats : Tree → Bool
  | .arr items => repeatsInItems items
  | .obj members =>
    decide ¬ (members.map (fun m => name m.1)).Nodup || repeatsInMembers members
  | .null | .bool _ | .num _ | .str _ => false

def repeatsInItems : List Tree → Bool
  | [] => false
  | t :: items => t.repeats || repeatsInItems items

def repeatsInMembers : List (Text × Tree) → Bool
  | [] => false
  | (_, t) :: members => t.repeats || repeatsInMembers members

end

inductive ObjectIn (members : List (Text × Tree)) : Tree → Prop where
  | here : ObjectIn members (.obj members)
  | item {t : Tree} {items : List Tree} : t ∈ items → ObjectIn members t →
      ObjectIn members (.arr items)
  | member {m : Text × Tree} {others : List (Text × Tree)} : m ∈ others → ObjectIn members m.2 →
      ObjectIn members (.obj others)

mutual

theorem objectIn_of_repeats : ∀ t : Tree, t.repeats name = true →
    ∃ members, ObjectIn members t ∧ ¬ (members.map (fun m => name m.1)).Nodup
  | .null, h | .bool _, h | .num _, h | .str _, h => by simp [Tree.repeats] at h
  | .arr items, h => by
    rw [Tree.repeats] at h
    obtain ⟨t, listed, members, inside, twice⟩ := objectIn_of_repeatsInItems items h
    exact ⟨members, .item listed inside, twice⟩
  | .obj others, h => by
    rw [Tree.repeats, Bool.or_eq_true, decide_eq_true_eq] at h
    rcases h with twice | deeper
    · exact ⟨others, .here, twice⟩
    · obtain ⟨m, listed, members, inside, twice⟩ := objectIn_of_repeatsInMembers others deeper
      exact ⟨members, .member listed inside, twice⟩

theorem objectIn_of_repeatsInItems : ∀ items : List Tree, repeatsInItems name items = true →
    ∃ t ∈ items, ∃ members, ObjectIn members t ∧ ¬ (members.map (fun m => name m.1)).Nodup
  | [], h => by simp [repeatsInItems] at h
  | t :: items, h => by
    rw [repeatsInItems, Bool.or_eq_true] at h
    rcases h with here | later
    · exact ⟨t, List.mem_cons_self, objectIn_of_repeats t here⟩
    · obtain ⟨u, listed, found⟩ := objectIn_of_repeatsInItems items later
      exact ⟨u, List.mem_cons_of_mem _ listed, found⟩

theorem objectIn_of_repeatsInMembers : ∀ others : List (Text × Tree),
    repeatsInMembers name others = true →
    ∃ m ∈ others, ∃ members, ObjectIn members m.2 ∧ ¬ (members.map (fun m => name m.1)).Nodup
  | [], h => by simp [repeatsInMembers] at h
  | (key, t) :: others, h => by
    rw [repeatsInMembers, Bool.or_eq_true] at h
    rcases h with here | later
    · exact ⟨(key, t), List.mem_cons_self, objectIn_of_repeats t here⟩
    · obtain ⟨m, listed, found⟩ := objectIn_of_repeatsInMembers others later
      exact ⟨m, List.mem_cons_of_mem _ listed, found⟩

end

theorem repeatsInItems_of_mem {t : Tree} {items : List Tree} (listed : t ∈ items)
    (h : t.repeats name = true) : repeatsInItems name items = true := by
  induction items with
  | nil => cases listed
  | cons u items ih =>
    rw [repeatsInItems, Bool.or_eq_true]
    rcases List.mem_cons.mp listed with rfl | later
    · exact .inl h
    · exact .inr (ih later)

theorem repeatsInMembers_of_mem {m : Text × Tree} {others : List (Text × Tree)} (listed : m ∈ others)
    (h : m.2.repeats name = true) : repeatsInMembers name others = true := by
  induction others with
  | nil => cases listed
  | cons other others ih =>
    rw [repeatsInMembers, Bool.or_eq_true]
    rcases List.mem_cons.mp listed with rfl | later
    · exact .inl h
    · exact .inr (ih later)

theorem repeats_iff (t : Tree) : t.repeats name = true ↔
    ∃ members, ObjectIn members t ∧ ¬ (members.map (fun m => name m.1)).Nodup := by
  refine ⟨objectIn_of_repeats name t, ?_⟩
  rintro ⟨members, inside, twice⟩
  induction inside with
  | here => rw [Tree.repeats, decide_eq_true twice, Bool.true_or]
  | item listed _ ih =>
    rw [Tree.repeats]
    exact repeatsInItems_of_mem name listed ih
  | member listed _ ih =>
    rw [Tree.repeats, repeatsInMembers_of_mem name listed ih, Bool.or_true]

mutual

/-- Members of one name made one, with the last value. -/
def Tree.merged : Tree → Tree
  | .arr items => .arr (mergedItems items)
  | .obj members =>
    .obj ((InsertionMap.ofList (fun m => name m.1) (mergedMembers members)).map Prod.snd)
  | t => t

def mergedItems : List Tree → List Tree
  | [] => []
  | t :: items => t.merged :: mergedItems items

def mergedMembers : List (Text × Tree) → List (Text × Tree)
  | [] => []
  | (key, t) :: members => (key, t.merged) :: mergedMembers members

end

theorem mergedItems_eq (items : List Tree) :
    mergedItems name items = items.map (Tree.merged name) := by
  induction items with
  | nil => rw [mergedItems, List.map_nil]
  | cons t items ih => rw [mergedItems, ih, List.map_cons]

theorem mergedMembers_eq (members : List (Text × Tree)) :
    mergedMembers name members = members.map (fun m => (m.1, m.2.merged name)) := by
  induction members with
  | nil => rw [mergedMembers, List.map_nil]
  | cons m members ih =>
    obtain ⟨key, t⟩ := m
    rw [mergedMembers, ih, List.map_cons]

theorem ofList_merged {β : Type*} {f : Tree → β} {members : List (Text × Tree)}
    (same : ∀ m ∈ members, f (m.2.merged name) = f m.2) :
    (InsertionMap.ofList (fun m => name m.1) ((InsertionMap.ofList (fun m => name m.1)
      (mergedMembers name members)).map Prod.snd)).map (Prod.map id (fun m => f m.2)) =
      (InsertionMap.ofList (fun m => name m.1) members).map (Prod.map id (fun m => f m.2)) := by
  have merges : InsertionMap.ofList (fun m => name m.1)
      (members.map (fun m => (m.1, m.2.merged name))) =
      (InsertionMap.ofList (fun m => name m.1) members).map
        (Prod.map id (fun m => (m.1, m.2.merged name))) :=
    InsertionMap.ofList_map _ (fun _ => rfl) members
  rw [InsertionMap.ofList_values, mergedMembers_eq, merges, List.map_map]
  refine List.map_congr_left (fun e member => ?_)
  exact Prod.ext rfl (same e.2 (InsertionMap.mem_ofList member).2)

theorem repeatsInMembers_eq_false {members : List (Text × Tree)} :
    repeatsInMembers name members = false ↔ ∀ m ∈ members, m.2.repeats name = false := by
  induction members with
  | nil => simp [repeatsInMembers]
  | cons m members ih =>
    obtain ⟨key, t⟩ := m
    simp [repeatsInMembers, ih]

mutual

theorem repeats_merged : ∀ t : Tree, (t.merged name).repeats name = false
  | .null | .bool _ | .num _ | .str _ => by simp [Tree.merged, Tree.repeats]
  | .arr items => by
    rw [Tree.merged, Tree.repeats]
    exact repeatsInItems_merged items
  | .obj members => by
    have distinct := InsertionMap.nodup_ofList (fun m : Text × Tree => name m.1)
      (mergedMembers name members)
    have names : ((InsertionMap.ofList (fun m : Text × Tree => name m.1)
        (mergedMembers name members)).map Prod.snd).map (fun m => name m.1) =
        (InsertionMap.ofList (fun m => name m.1) (mergedMembers name members)).map Prod.fst := by
      rw [List.map_map]
      exact List.map_congr_left (fun e member => (InsertionMap.mem_ofList member).1.symm)
    rw [Tree.merged, Tree.repeats, names, Bool.or_eq_false_iff]
    refine ⟨by simpa using distinct, (repeatsInMembers_eq_false name).mpr (fun m member => ?_)⟩
    obtain ⟨e, kept, rfl⟩ := List.mem_map.mp member
    exact repeatsInMembers_merged members _ (InsertionMap.mem_ofList kept).2

theorem repeatsInItems_merged : ∀ items : List Tree,
    repeatsInItems name (mergedItems name items) = false
  | [] => by rw [mergedItems, repeatsInItems]
  | t :: items => by
    rw [mergedItems, repeatsInItems, repeats_merged t, repeatsInItems_merged items]
    rfl

theorem repeatsInMembers_merged : ∀ members : List (Text × Tree),
    ∀ m ∈ mergedMembers name members, m.2.repeats name = false
  | [] => by simp [mergedMembers]
  | (key, t) :: members => by
    rw [mergedMembers, List.forall_mem_cons]
    exact ⟨repeats_merged t, repeatsInMembers_merged members⟩

end

end Names

end JsonText
