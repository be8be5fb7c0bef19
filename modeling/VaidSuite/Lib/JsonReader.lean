import Mathlib.Data.List.TakeDrop
import Mathlib.Data.List.TakeWhile
import VaidSuite.Lib.JsonText

/-! How a JSON text is read: the readers one step at a time, what they have consumed, and
how much fuel is enough. -/
namespace JsonText

/-! ### The readers by the first character -/

theorem fractionPart_cons (c : Nat) (t : Text) :
    fractionPart (c :: t) = if c = 0x2e then digitsAfter [0x2e] t else ([], c :: t) := by
  by_cases dot : c = 0x2e
  · subst dot
    rfl
  · rw [if_neg dot, fractionPart]
    intro t' same
    exact dot (List.cons.inj same).1

def exponentDigits (e : Nat) : Text → Text × Text
  | [] => digitsAfter [e] []
  | sign :: t =>
    if sign = 0x2b ∨ sign = 0x2d then digitsAfter [e, sign] t else digitsAfter [e] (sign :: t)

theorem exponentPart_cons (e : Nat) (t : Text) : exponentPart (e :: t) =
    if e = 0x65 ∨ e = 0x45 then exponentDigits e t else ([], e :: t) := by
  unfold exponentPart
  refine ite_congr rfl (fun _ => ?_) (fun _ => rfl)
  cases t with
  | nil => rfl
  | cons sign t =>
    simp only [exponentDigits]
    by_cases plus : sign = 0x2b
    · rw [if_pos (.inl plus), plus]
      rfl
    · by_cases minus : sign = 0x2d
      · rw [if_pos (.inr minus), minus]
        rfl
      · rw [if_neg (by omega)]
        split
        · rename_i same
          exact absurd (List.cons.inj same).1 plus
        · rename_i same
          exact absurd (List.cons.inj same).1 minus
        · rfl

/-- A number that is not one of the words. -/
def signed : Text → Option (Text × Text)
  | [] => none
  | c :: t => if c = 0x2d then (unsigned t).map (Prod.map (fun s => 0x2d :: s) id) else unsigned (c :: t)

theorem number_eq (t : Text) : number t =
    match nonFinite.find? (fun w => w.isPrefixOf t) with
    | some w => some (w, t.drop w.length)
    | none => signed t := by
  unfold number
  cases nonFinite.find? (fun w => w.isPrefixOf t) with
  | some w => rfl
  | none =>
    cases t with
    | nil => rfl
    | cons c t =>
      simp only [signed]
      by_cases minus : c = 0x2d
      · rw [if_pos minus, minus]
        rfl
      · rw [if_neg minus]
        split
        · rename_i same
          exact absurd (List.cons.inj same).1 minus
        · rfl

def hexEscape : Text → Option (Text × Text)
  | h₁ :: h₂ :: h₃ :: h₄ :: t =>
    if [h₁, h₂, h₃, h₄].all isHexDigit = true then some ([h₁, h₂, h₃, h₄], t) else none
  | _ => none

theorem string_cons (c : Nat) (t : Text) : string (c :: t) =
    if c = quote then some ([], t)
    else if c = backslash then
      match t with
      | [] => none
      | e :: t =>
        if e ∈ simpleEscapes then (string t).map (Prod.map (fun s => c :: e :: s) id)
        else if e = 0x75 then
          (hexEscape t).bind (fun h => (string h.2).map (Prod.map (fun s => c :: e :: (h.1 ++ s)) id))
        else none
    else if c < 0x20 then none
    else (string t).map (Prod.map (fun s => c :: s) id) := by
  rw [string.eq_def]
  dsimp only
  split_ifs with ended escaped
  · rfl
  · cases t with
    | nil => rfl
    | cons e t =>
      dsimp only
      split_ifs with simple byNumber
      · rfl
      · match t with
        | h₁ :: h₂ :: h₃ :: h₄ :: t =>
          dsimp only [hexEscape]
          by_cases digits : [h₁, h₂, h₃, h₄].all isHexDigit = true
          · rw [if_pos ⟨byNumber, digits⟩, if_pos digits]
            rfl
          · rw [if_neg (fun both => digits both.2), if_neg digits]
            rfl
        | [] | [_] | [_, _] | [_, _, _] => rfl
      · split
        · rw [if_neg (fun both => byNumber both.1)]
        · rfl
  · rfl
  · rfl

theorem string_plain {plain : Text} (outside : ∀ c ∈ plain, 0x80 ≤ c) (t : Text) :
    string (plain ++ t) = (string t).map (Prod.map (fun s => plain ++ s) id) := by
  induction plain with
  | nil =>
    rw [List.nil_append]
    cases string t <;> rfl
  | cons c plain ih =>
    have high := outside c List.mem_cons_self
    have notQuote : c ≠ quote := fun same => by
      rw [same] at high
      exact absurd high (by decide)
    have notBackslash : c ≠ backslash := fun same => by
      rw [same] at high
      exact absurd high (by decide)
    rw [List.cons_append, string_cons, if_neg notQuote, if_neg notBackslash, if_neg (by omega),
      ih (fun d hd => outside d (List.mem_cons_of_mem _ hd)), Option.map_map]
    rfl

theorem hexEscape_eq_some {t digits rest : Text} (h : hexEscape t = some (digits, rest)) :
    t = digits ++ rest ∧ digits.length = 4 ∧ ∀ d ∈ digits, isHexDigit d = true := by
  unfold hexEscape at h
  split at h
  · split at h
    · rename_i hex
      cases h
      exact ⟨rfl, rfl, List.all_eq_true.mp hex⟩
    · cases h
  · cases h

theorem hexEscape_append {digits : Text} (four : digits.length = 4)
    (hex : ∀ d ∈ digits, isHexDigit d = true) (rest : Text) :
    hexEscape (digits ++ rest) = some (digits, rest) := by
  match digits, four with
  | [h₁, h₂, h₃, h₄], _ => exact if_pos (List.all_eq_true.mpr hex)

theorem unescape_plain {c : Nat} (h : c ≠ backslash) (s : Text) :
    unescape (c :: s) = c :: unescape s := by
  rw [unescape]
  · intro h₁ h₂ h₃ h₄ s' same
    exact absurd same h
  · intro e s' same
    exact absurd same h

/-! ### The readers step by step -/

def behind (c : Nat) : Text → Option Text
  | [] => none
  | d :: t => if d = c then some t else none

/-- What an opening character is followed by: the closing one, or items. -/
def container {α : Type} (close : Nat) (make : List α → Tree) (body : Text → Option (List α × Text))
    (t : Text) : Option (Tree × Text) :=
  match behind close t with
  | some inner => some (make [], inner)
  | none => (body t).map (Prod.map make id)

/-- What an item is followed by: the closing character, or a comma and more items. -/
def continued {α : Type} (close : Nat) (more : Text → Option (List α × Text)) (item : α)
    (t : Text) : Option (List α × Text) :=
  match behind close t with
  | some rest => some ([item], rest)
  | none => (behind comma t).bind (fun rest => (more (skipSpace rest)).map (Prod.map (item :: ·) id))

theorem continued_cons {α : Type} (close : Nat) (more : Text → Option (List α × Text)) (item : α)
    (c : Nat) (rest : Text) : continued close more item (c :: rest) =
      if c = close then some ([item], rest)
      else if c = comma then (more (skipSpace rest)).map (Prod.map (item :: ·) id) else none := by
  simp only [continued, behind]
  by_cases closes : c = close
  · rw [if_pos closes, if_pos closes]
  · rw [if_neg closes, if_neg closes]
    split_ifs <;> rfl

theorem value_nil (fuel : Nat) : value fuel [] = none := by
  cases fuel with
  | zero => rfl
  | succ fuel => rw [value]

theorem items_succ (fuel : Nat) (t : Text) : items (fuel + 1) t =
    (value fuel t).bind (fun v => continued closeBracket (items fuel) v.1 (skipSpace v.2)) := by
  rw [items]
  refine congrArg (fun f => (value fuel t).bind f) (funext (fun v => ?_))
  obtain ⟨item, behindItem⟩ := v
  dsimp only
  cases skipSpace behindItem with
  | nil => rfl
  | cons c rest =>
    rw [continued_cons]
    dsimp only
    split_ifs
    · rfl
    · cases items fuel (skipSpace rest) <;> rfl
    · rfl

theorem items_nil (fuel : Nat) : items fuel [] = none := by
  cases fuel with
  | zero => rfl
  | succ fuel => rw [items_succ, value_nil, Option.bind_none]

theorem members_succ (fuel : Nat) (t : Text) : members (fuel + 1) t =
    (behind quote t).bind (fun t => (string t).bind (fun name =>
      (behind colon (skipSpace name.2)).bind (fun rest =>
        (value fuel (skipSpace rest)).bind (fun v =>
          continued closeBrace (members fuel) (name.1, v.1) (skipSpace v.2))))) := by
  cases t with
  | nil => rfl
  | cons c t =>
    rw [members]
    simp only [behind, ne_eq, ite_not, Option.bind_eq_bind, Option.bind_none]
    split_ifs with quoted
    · rw [Option.bind_some]
      refine congrArg (fun f => (string t).bind f) (funext (fun n => ?_))
      obtain ⟨name, behindName⟩ := n
      dsimp only
      cases skipSpace behindName with
      | nil => rfl
      | cons c rest =>
        simp only
        split_ifs with named
        · rw [Option.bind_some]
          refine congrArg (fun f => (value fuel (skipSpace rest)).bind f) (funext (fun v => ?_))
          obtain ⟨item, behindItem⟩ := v
          dsimp only
          cases skipSpace behindItem with
          | nil => rfl
          | cons c rest =>
            rw [continued_cons]
            dsimp only
            split_ifs
            · rfl
            · cases members fuel (skipSpace rest) <;> rfl
            · rfl
        · rfl
    · rfl

theorem members_nil (fuel : Nat) : members fuel [] = none := by
  cases fuel with
  | zero => rfl
  | succ fuel => rw [members_succ, behind, Option.bind_none]

theorem value_cons (fuel c : Nat) (rest : Text) : value (fuel + 1) (c :: rest) =
    if c = quote then (string rest).map (Prod.map .str id)
    else if c = openBracket then container closeBracket .arr (items fuel) (skipSpace rest)
    else if c = openBrace then container closeBrace .obj (members fuel) (skipSpace rest)
    else scalar (c :: rest) := by
  rw [value]
  split_ifs with text list object
  · rfl
  · unfold container
    cases skipSpace rest with
    | nil => simp only [behind, items_nil, Option.map_none]
    | cons d inner =>
      simp only [behind]
      split_ifs <;> rfl
  · unfold container
    cases skipSpace rest with
    | nil => simp only [behind, members_nil, Option.map_none]
    | cons d inner =>
      simp only [behind]
      split_ifs <;> rfl
  · rfl

/-! ### What has been read -/

/-- What may stand between the quotes of a string. -/
inductive Spelled : Text → Prop
  | nil : Spelled []
  | plain {c : Nat} {s : Text} : c ≠ quote → c ≠ backslash → 0x20 ≤ c → Spelled s → Spelled (c :: s)
  | simple {e : Nat} {s : Text} : e ∈ simpleEscapes → Spelled s → Spelled (backslash :: e :: s)
  | hex {digits s : Text} : digits.length = 4 → (∀ d ∈ digits, isHexDigit d = true) → Spelled s →
      Spelled (backslash :: 0x75 :: (digits ++ s))

theorem of_string {t s rest : Text} (h : string t = some (s, rest)) :
    Spelled s ∧ t = s ++ quote :: rest := by
  induction length : t.length using Nat.strongRecOn generalizing t s with
  | ind n ih =>
    subst length
    cases t with
    | nil => cases h
    | cons c t =>
      rw [string_cons] at h
      split_ifs at h with ended escaped low
      · cases h
        exact ⟨.nil, by rw [ended]; rfl⟩
      · subst escaped
        cases t with
        | nil => cases h
        | cons e t =>
          dsimp only at h
          split_ifs at h with simple byNumber
          · obtain ⟨⟨s', rest'⟩, read, same⟩ := Option.map_eq_some_iff.mp h
            cases same
            obtain ⟨spelled, rfl⟩ := ih t.length (by simp only [List.length_cons]; omega) read rfl
            exact ⟨.simple simple spelled, rfl⟩
          · subst byNumber
            obtain ⟨⟨digits, t'⟩, escape, behindEscape⟩ := Option.bind_eq_some_iff.mp h
            obtain ⟨⟨s', rest'⟩, read, same⟩ := Option.map_eq_some_iff.mp behindEscape
            obtain ⟨rfl, four, hex⟩ := hexEscape_eq_some escape
            cases same
            obtain ⟨spelled, rfl⟩ := ih t'.length
              (by simp only [List.length_cons, List.length_append]; omega) read rfl
            exact ⟨.hex four hex spelled, by simp⟩
      · obtain ⟨⟨s', rest'⟩, read, same⟩ := Option.map_eq_some_iff.mp h
        cases same
        obtain ⟨spelled, rfl⟩ := ih t.length (Nat.lt_succ_self _) read rfl
        exact ⟨.plain ended escaped (by omega) spelled, rfl⟩

theorem digits_append (t : Text) : (digits t).1 ++ (digits t).2 = t := List.takeWhile_append_dropWhile

theorem digitsAfter_append (lead t : Text) :
    (digitsAfter lead t).1 ++ (digitsAfter lead t).2 = lead ++ t := by
  have whole := digits_append t
  unfold digitsAfter
  rcases found : digits t with ⟨_ | ⟨d, ds⟩, rest⟩
  · rfl
  · rw [found] at whole
    rw [← whole]
    exact List.append_assoc lead (d :: ds) rest

theorem fractionPart_append (t : Text) : (fractionPart t).1 ++ (fractionPart t).2 = t := by
  cases t with
  | nil => rfl
  | cons c t =>
    rw [fractionPart_cons]
    split_ifs with dot
    · rw [digitsAfter_append, dot]
      rfl
    · rfl

theorem exponentPart_append (t : Text) : (exponentPart t).1 ++ (exponentPart t).2 = t := by
  cases t with
  | nil => rfl
  | cons e t =>
    rw [exponentPart_cons]
    split_ifs
    · cases t with
      | nil => exact digitsAfter_append [e] []
      | cons sign t =>
        simp only [exponentDigits]
        split_ifs
        · exact digitsAfter_append [e, sign] t
        · exact digitsAfter_append [e] (sign :: t)
    · rfl

theorem of_unsigned {t s rest : Text} (h : unsigned t = some (s, rest)) :
    ∃ d s', isDigit d = true ∧ s = d :: s' ∧ t = s ++ rest := by
  cases t with
  | nil => cases h
  | cons c t =>
    simp only [unsigned] at h
    split_ifs at h with other leads
    · have digit : isDigit c = true := by simpa using other
      have fraction := fractionPart_append t
      have exponent := exponentPart_append (fractionPart t).2
      cases h
      refine ⟨c, _, digit, by rw [List.append_assoc, List.singleton_append], ?_⟩
      rw [List.append_assoc, exponent, List.append_assoc, fraction]
      rfl
    · have digit : isDigit c = true := by simpa using other
      have whole := digits_append t
      have fraction := fractionPart_append (digits t).2
      have exponent := exponentPart_append (fractionPart (digits t).2).2
      cases h
      refine ⟨c, _, digit, by rw [Prod.map_fst, List.append_assoc, List.cons_append], ?_⟩
      simp only [List.append_assoc, Prod.map_fst, Prod.map_snd, id, exponent, fraction, whole,
        List.cons_append]

theorem of_number {t s rest : Text} (h : number t = some (s, rest)) : s ≠ [] ∧ t = s ++ rest := by
  rw [number_eq] at h
  cases found : nonFinite.find? (fun w => w.isPrefixOf t) with
  | some w =>
    have leads : w.isPrefixOf t = true := by simpa using List.find?_some found
    have nonempty : ∀ w ∈ nonFinite, w ≠ [] := by decide
    rw [found] at h
    cases h
    refine ⟨nonempty _ (List.mem_of_find?_eq_some found), ?_⟩
    obtain ⟨rest, rfl⟩ := List.isPrefixOf_iff_prefix.mp leads
    rw [List.drop_left]
  | none =>
    rw [found] at h
    cases t with
    | nil => cases h
    | cons c t =>
      simp only [signed] at h
      split_ifs at h with minus
      · obtain ⟨⟨s', rest'⟩, read, same⟩ := Option.map_eq_some_iff.mp h
        cases same
        obtain ⟨d, ds, _, rfl, rfl⟩ := of_unsigned read
        exact ⟨by simp, by rw [minus]; rfl⟩
      · obtain ⟨d, ds, _, rfl, whole⟩ := of_unsigned h
        exact ⟨by simp, whole⟩

theorem of_after {w t rest : Text} (h : after w t = some rest) : t = w ++ rest := by
  unfold after at h
  split_ifs at h with leads
  obtain ⟨rest', rfl⟩ := List.isPrefixOf_iff_prefix.mp leads
  rw [List.drop_left] at h
  cases h
  rfl

theorem of_scalar {t : Text} {tree : Tree} {rest : Text} (h : scalar t = some (tree, rest)) :
    (tree = .null ∧ t = codes "null" ++ rest) ∨ (tree = .bool true ∧ t = codes "true" ++ rest) ∨
      (tree = .bool false ∧ t = codes "false" ++ rest) ∨
        ∃ s, tree = .num s ∧ number t = some (s, rest) := by
  unfold scalar at h
  split at h
  · rename_i read
    cases h
    exact .inl ⟨rfl, of_after read⟩
  · rename_i read _
    cases h
    exact .inr (.inl ⟨rfl, of_after read⟩)
  · rename_i read _ _
    cases h
    exact .inr (.inr (.inl ⟨rfl, of_after read⟩))
  · obtain ⟨⟨s, rest'⟩, read, same⟩ := Option.map_eq_some_iff.mp h
    cases same
    exact .inr (.inr (.inr ⟨s, rfl, read⟩))

theorem length_skipSpace (t : Text) : (skipSpace t).length ≤ t.length :=
  (List.dropWhile_suffix isSpace).length_le

theorem of_behind {c : Nat} {t rest : Text} (h : behind c t = some rest) : t = c :: rest := by
  cases t with
  | nil => cases h
  | cons d t =>
    rw [behind] at h
    split_ifs at h with same
    cases h
    rw [same]

/-- A digit, a sign, a point or the letter of an exponent. -/
def isNumeral (c : Nat) : Bool := isDigit c || c ∈ [0x2b, 0x2d, 0x2e, 0x45, 0x65]

theorem digitsAfter_numeral {lead : Text} (numeral : ∀ c ∈ lead, isNumeral c = true) (t : Text) :
    ∀ c ∈ (digitsAfter lead t).1, isNumeral c = true := by
  unfold digitsAfter
  rcases found : digits t with ⟨_ | ⟨d, ds⟩, rest⟩
  · simp
  · intro c member
    rcases List.mem_append.mp member with member | member
    · exact numeral c member
    · have taken : c ∈ t.takeWhile isDigit := by
        rw [show t.takeWhile isDigit = d :: ds from congrArg Prod.fst found]
        exact member
      rw [isNumeral, List.mem_takeWhile_imp taken, Bool.true_or]

theorem fractionPart_numeral (t : Text) : ∀ c ∈ (fractionPart t).1, isNumeral c = true := by
  cases t with
  | nil => simp [fractionPart]
  | cons c t =>
    rw [fractionPart_cons]
    split_ifs
    · exact digitsAfter_numeral (by decide) t
    · simp

theorem exponentPart_numeral (t : Text) : ∀ c ∈ (exponentPart t).1, isNumeral c = true := by
  cases t with
  | nil => simp [exponentPart]
  | cons e t =>
    rw [exponentPart_cons]
    split_ifs with letter
    · have lead : isNumeral e = true := by rcases letter with rfl | rfl <;> decide
      cases t with
      | nil => exact digitsAfter_numeral (by simpa using lead) []
      | cons sign t =>
        simp only [exponentDigits]
        split_ifs with signs
        · have second : isNumeral sign = true := by rcases signs with rfl | rfl <;> decide
          exact digitsAfter_numeral (by simp [lead, second]) t
        · exact digitsAfter_numeral (by simpa using lead) _
    · simp

theorem unsigned_numeral {t s rest : Text} (h : unsigned t = some (s, rest)) :
    ∀ c ∈ s, isNumeral c = true := by
  cases t with
  | nil => cases h
  | cons d t =>
    simp only [unsigned] at h
    split_ifs at h with other leads
    all_goals
      have digit : isNumeral d = true := by
        rw [isNumeral, show isDigit d = true by simpa using other, Bool.true_or]
      cases h
      intro c member
      simp only [Prod.map_fst, List.mem_append] at member
    · rcases member with (member | member) | member
      · rwa [List.mem_singleton.mp member]
      · exact fractionPart_numeral _ c member
      · exact exponentPart_numeral _ c member
    · rcases member with (member | member) | member
      · rcases List.mem_cons.mp member with rfl | member
        · exact digit
        · rw [isNumeral, List.mem_takeWhile_imp member, Bool.true_or]
      · exact fractionPart_numeral _ c member
      · exact exponentPart_numeral _ c member

theorem number_numeral {t s rest : Text} (h : number t = some (s, rest)) :
    s ∈ nonFinite ∨ ∀ c ∈ s, isNumeral c = true := by
  rw [number_eq] at h
  cases found : nonFinite.find? (fun w => w.isPrefixOf t) with
  | some w =>
    rw [found] at h
    cases h
    exact .inl (List.mem_of_find?_eq_some found)
  | none =>
    rw [found] at h
    cases t with
    | nil => cases h
    | cons c t =>
      simp only [signed] at h
      split_ifs at h with minus
      · obtain ⟨⟨s', rest'⟩, read, same⟩ := Option.map_eq_some_iff.mp h
        cases same
        refine .inr (fun c member => ?_)
        rcases List.mem_cons.mp member with rfl | member
        · decide
        · exact unsigned_numeral read c member
      · exact .inr (unsigned_numeral h)

/-! ### Progress and fuel -/

theorem string_progress {t s rest : Text} (h : string t = some (s, rest)) : rest.length < t.length := by
  rw [(of_string h).2, List.length_append, List.length_cons]
  omega

theorem scalar_progress {t rest : Text} {tree : Tree} (h : scalar t = some (tree, rest)) :
    rest.length < t.length := by
  have shorter : ∀ w : Text, w ≠ [] → t = w ++ rest → rest.length < t.length := by
    rintro w nonempty rfl
    have := List.length_pos_iff.mpr nonempty
    rw [List.length_append]
    omega
  rcases of_scalar h with ⟨_, whole⟩ | ⟨_, whole⟩ | ⟨_, whole⟩ | ⟨s, _, read⟩
  · exact shorter _ (by decide) whole
  · exact shorter _ (by decide) whole
  · exact shorter _ (by decide) whole
  · exact shorter s (of_number read).1 (of_number read).2

/-- A reader leaves less than it was given. -/
def Progresses {α : Type} (reads : Text → Option (α × Text)) : Prop :=
  ∀ (t : Text) (a : α) (rest : Text), reads t = some (a, rest) → rest.length < t.length

theorem container_progress {α : Type} {close : Nat} {make : List α → Tree}
    {body : Text → Option (List α × Text)} (progresses : Progresses body) :
    Progresses (container close make body) := by
  intro t tree rest h
  unfold container at h
  split at h
  · rename_i closed
    cases h
    rw [of_behind closed, List.length_cons]
    omega
  · obtain ⟨⟨xs, rest'⟩, read, same⟩ := Option.map_eq_some_iff.mp h
    cases same
    exact progresses _ _ _ read

theorem continued_progress {α : Type} {close : Nat} {more : Text → Option (List α × Text)}
    (progresses : Progresses more) (item : α) : Progresses (continued close more item) := by
  intro t xs rest h
  unfold continued at h
  split at h
  · rename_i closed
    cases h
    rw [of_behind closed, List.length_cons]
    omega
  · obtain ⟨t', separated, h⟩ := Option.bind_eq_some_iff.mp h
    obtain ⟨⟨xs', rest'⟩, read, same⟩ := Option.map_eq_some_iff.mp h
    cases same
    have shorter := progresses _ _ _ read
    have spaces := length_skipSpace t'
    rw [of_behind separated, List.length_cons]
    simp only [id]
    omega

theorem readers_progress (fuel : Nat) :
    Progresses (value fuel) ∧ Progresses (items fuel) ∧ Progresses (members fuel) := by
  induction fuel with
  | zero =>
    refine ⟨fun t tree rest h => ?_, fun t xs rest h => ?_, fun t xs rest h => ?_⟩
    · cases h
    · cases h
    · cases h
  | succ fuel ih =>
    obtain ⟨ofValue, ofItems, ofMembers⟩ := ih
    refine ⟨fun t tree rest h => ?_, fun t xs rest h => ?_, fun t xs rest h => ?_⟩
    · cases t with
      | nil =>
        rw [value_nil] at h
        cases h
      | cons c t =>
        have spaces := length_skipSpace t
        rw [value_cons] at h
        split_ifs at h
        · obtain ⟨⟨s, rest'⟩, read, same⟩ := Option.map_eq_some_iff.mp h
          cases same
          exact Nat.lt_succ_of_lt (string_progress read)
        · have shorter := container_progress ofItems _ _ _ h
          rw [List.length_cons]
          omega
        · have shorter := container_progress ofMembers _ _ _ h
          rw [List.length_cons]
          omega
        · exact scalar_progress h
    · rw [items_succ] at h
      obtain ⟨⟨item, t'⟩, read, h⟩ := Option.bind_eq_some_iff.mp h
      have first := ofValue _ _ _ read
      have spaces := length_skipSpace t'
      have later := continued_progress ofItems item _ _ _ h
      dsimp only at later
      omega
    · rw [members_succ] at h
      obtain ⟨t₁, quoted, h⟩ := Option.bind_eq_some_iff.mp h
      obtain ⟨⟨name, t₂⟩, named, h⟩ := Option.bind_eq_some_iff.mp h
      obtain ⟨t₃, separated, h⟩ := Option.bind_eq_some_iff.mp h
      obtain ⟨⟨item, t₄⟩, read, h⟩ := Option.bind_eq_some_iff.mp h
      have whole := congrArg List.length (of_behind quoted)
      have ofName := string_progress named
      have spaces₂ := length_skipSpace t₂
      have ofColon := congrArg List.length (of_behind separated)
      have spaces₃ := length_skipSpace t₃
      have ofItem := ofValue _ _ _ read
      have spaces₄ := length_skipSpace t₄
      have later := continued_progress ofMembers (name, item) _ _ _ h
      rw [List.length_cons] at whole ofColon
      dsimp only at later ofColon
      omega

theorem container_congr {α : Type} {close : Nat} {make : List α → Tree}
    {body body' : Text → Option (List α × Text)} {t : Text} (same : body t = body' t) :
    container close make body t = container close make body' t := by
  rw [container, container, same]

theorem continued_congr {α : Type} {close : Nat} {more more' : Text → Option (List α × Text)}
    {item : α} {t : Text} (same : ∀ t', t'.length < t.length → more t' = more' t') :
    continued close more item t = continued close more' item t := by
  unfold continued
  cases closed : behind close t with
  | some rest => rfl
  | none =>
    cases separated : behind comma t with
    | none => rfl
    | some rest =>
      have spaces := length_skipSpace rest
      have shorter : (skipSpace rest).length < t.length := by
        rw [of_behind separated, List.length_cons]
        omega
      rw [Option.bind_some, Option.bind_some, same _ shorter]

theorem readers_step (fuel : Nat) :
    (∀ t, 2 * t.length + 1 ≤ fuel → value (fuel + 1) t = value fuel t) ∧
      (∀ t, 2 * t.length + 2 ≤ fuel → items (fuel + 1) t = items fuel t) ∧
        ∀ t, 2 * t.length + 2 ≤ fuel → members (fuel + 1) t = members fuel t := by
  induction fuel with
  | zero => exact ⟨fun t h => by omega, fun t h => by omega, fun t h => by omega⟩
  | succ fuel ih =>
    obtain ⟨ofValue, ofItems, ofMembers⟩ := ih
    obtain ⟨progress, _, _⟩ := readers_progress fuel
    refine ⟨fun t enough => ?_, fun t enough => ?_, fun t enough => ?_⟩
    · cases t with
      | nil => rw [value_nil, value_nil]
      | cons c t =>
        have spaces := length_skipSpace t
        rw [List.length_cons] at enough
        rw [value_cons, value_cons, container_congr (ofItems (skipSpace t) (by omega)),
          container_congr (ofMembers (skipSpace t) (by omega))]
    · rw [items_succ, items_succ, ofValue t (by omega)]
      cases read : value fuel t with
      | none => rfl
      | some v =>
        have shorter := progress _ _ _ read
        have spaces := length_skipSpace v.2
        exact continued_congr (fun t' h => ofItems t' (by omega))
    · rw [members_succ, members_succ]
      cases quoted : behind quote t with
      | none => rfl
      | some t₁ =>
        cases named : string t₁ with
        | none => simp only [Option.bind_some, named, Option.bind_none]
        | some name =>
          cases separated : behind colon (skipSpace name.2) with
          | none => simp only [Option.bind_some, named, separated, Option.bind_none]
          | some rest =>
            have whole := congrArg List.length (of_behind quoted)
            have ofName := string_progress named
            have spaces₂ := length_skipSpace name.2
            have ofColon := congrArg List.length (of_behind separated)
            have spaces₃ := length_skipSpace rest
            rw [List.length_cons] at whole ofColon
            simp only [Option.bind_some, named, separated, ofValue (skipSpace rest) (by omega)]
            cases read : value fuel (skipSpace rest) with
            | none => rfl
            | some v =>
              have shorter := progress _ _ _ read
              have spaces := length_skipSpace v.2
              exact continued_congr (fun t' h => ofMembers t' (by omega))

theorem value_fuel {fuel : Nat} {t : Text} (enough : 2 * t.length + 1 ≤ fuel) :
    value fuel t = value (2 * t.length + 1) t := by
  induction enough with
  | refl => rfl
  | step enough ih => rw [(readers_step _).1 t enough, ih]

end JsonText
