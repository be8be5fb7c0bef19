import VaidSuite.Lib.JsonReader

/-! The scan of the raw text for a member name that an object repeats. Over whatever codes the
host language scans, it finds exactly the names that are spelled alike. -/
namespace VaidSuite.DuplicateNames

open JsonText

/-- Read a string from behind its opening quote. Escapes are consumed, and left as written. -/
def scanJsonString : Text → Option (Text × Text)
  | [] => none
  | c :: t =>
    if c = quote then some ([], t)
    else if c = backslash then
      match t with
      | [] => none
      | e :: t => (scanJsonString t).map (Prod.map (fun s => c :: e :: s) id)
    else (scanJsonString t).map (Prod.map (fun s => c :: s) id)

/-- What the host language skips between a name and its colon. -/
structure Space where
  skips : Nat → Bool
  json : ∀ c, isSpace c = true → skips c = true
  stops : ∀ c ∈ [comma, colon, closeBracket, closeBrace], skips c = false

/-- A string is a name if the next character that is not skipped is a colon. -/
def isName (space : Space) (rest : Text) : Bool := (rest.dropWhile space.skips).head? == some colon

/-- One set of names for each open object, and `none` for each open array. The fuel is the
length of the text, which bounds the loop of the source. -/
def scan (space : Space) : Nat → List (Option (List Text)) → Text → Bool
  | 0, _, _ => false
  | _, _, [] => false
  | fuel + 1, stack, c :: t =>
    if c = openBrace then scan space fuel (some [] :: stack) t
    else if c = openBracket then scan space fuel (none :: stack) t
    else if c = closeBrace ∨ c = closeBracket then scan space fuel stack.tail t
    else if c = quote then
      match scanJsonString t with
      -- an unterminated string is not this check's error to report
      | none => false
      | some (name, rest) =>
        if isName space rest then
          match stack with
          | some seen :: outer =>
            if name ∈ seen then true else scan space fuel (some (name :: seen) :: outer) rest
          | _ => scan space fuel stack rest
        else scan space fuel stack rest
    else scan space fuel stack t

def hasDuplicateMemberNames (space : Space) (t : Text) : Bool := scan space t.length [] t

theorem scanJsonString_cons (c : Nat) (t : Text) : scanJsonString (c :: t) =
    if c = quote then some ([], t)
    else if c = backslash then
      match t with
      | [] => none
      | e :: t => (scanJsonString t).map (Prod.map (fun s => c :: e :: s) id)
    else (scanJsonString t).map (Prod.map (fun s => c :: s) id) := by
  rw [scanJsonString.eq_def]
  rfl

theorem of_scanJsonString {t name rest : Text}
    (h : scanJsonString t = some (name, rest)) :
    t = name ++ quote :: rest := by
  induction length : t.length using Nat.strongRecOn generalizing t name with
  | ind n ih =>
    subst length
    cases t with
    | nil => cases h
    | cons c t =>
      rw [scanJsonString_cons] at h
      split_ifs at h with ended escaped
      · cases h
        rw [ended, List.nil_append]
      · cases t with
        | nil => cases h
        | cons e t =>
          obtain ⟨⟨s, rest'⟩, read, same⟩ := Option.map_eq_some_iff.mp h
          cases same
          rw [ih t.length (by simp only [List.length_cons]; omega) read rfl]
          rfl
      · obtain ⟨⟨s, rest'⟩, read, same⟩ := Option.map_eq_some_iff.mp h
        cases same
        rw [ih t.length (Nat.lt_succ_self _) read rfl]
        rfl

theorem scanJsonString_progress {t name rest : Text} (h : scanJsonString t = some (name, rest)) :
    rest.length < t.length := by
  rw [of_scanJsonString h, List.length_append, List.length_cons]
  omega

variable {space : Space}

theorem scan_succ (fuel : Nat) (stack : List (Option (List Text))) (t : Text)
    (enough : t.length ≤ fuel) : scan space (fuel + 1) stack t = scan space fuel stack t := by
  induction fuel generalizing stack t with
  | zero =>
    rw [List.eq_nil_of_length_eq_zero (Nat.le_zero.mp enough)]
    rfl
  | succ fuel ih =>
    cases t with
    | nil => rfl
    | cons c t =>
      have shorter : t.length ≤ fuel := Nat.le_of_succ_le_succ enough
      rw [scan, scan]
      simp only [ih _ t shorter]
      refine ite_congr rfl (fun _ => rfl) (fun _ => ite_congr rfl (fun _ => rfl) (fun _ =>
        ite_congr rfl (fun _ => rfl) (fun _ => ite_congr rfl (fun _ => ?_) (fun _ => rfl))))
      cases scanned : scanJsonString t with
      | none => rfl
      | some r =>
        obtain ⟨name, rest⟩ := r
        have behind := scanJsonString_progress scanned
        simp only [ih _ rest (by omega)]

theorem scan_fuel {fuel : Nat} {t : Text} (enough : t.length ≤ fuel)
    (stack : List (Option (List Text))) : scan space fuel stack t = scan space t.length stack t := by
  induction enough with
  | refl => rfl
  | step enough ih => rw [scan_succ _ _ _ enough, ih]

def scanFrom (space : Space) (stack : List (Option (List Text))) (t : Text) : Bool :=
  scan space t.length stack t

theorem scanFrom_cons (stack : List (Option (List Text))) (c : Nat) (t : Text) :
    scanFrom space stack (c :: t) =
      if c = openBrace then scanFrom space (some [] :: stack) t
      else if c = openBracket then scanFrom space (none :: stack) t
      else if c = closeBrace ∨ c = closeBracket then scanFrom space stack.tail t
      else if c = quote then
        match scanJsonString t with
        | none => false
        | some (name, rest) =>
          if isName space rest then
            match stack with
            | some seen :: outer =>
              if name ∈ seen then true else scanFrom space (some (name :: seen) :: outer) rest
            | _ => scanFrom space stack rest
          else scanFrom space stack rest
      else scanFrom space stack t := by
  unfold scanFrom
  rw [List.length_cons, scan]
  refine ite_congr rfl (fun _ => rfl) (fun _ => ite_congr rfl (fun _ => rfl) (fun _ =>
    ite_congr rfl (fun _ => rfl) (fun _ => ite_congr rfl (fun _ => ?_) (fun _ => rfl))))
  cases scanned : scanJsonString t with
  | none => rfl
  | some r =>
    obtain ⟨name, rest⟩ := r
    have behind := scanJsonString_progress scanned
    simp only [scan_fuel (show rest.length ≤ t.length by omega)]

/-- The scan does nothing at this character. -/
def isPlain (c : Nat) : Bool := c ∉ [quote, openBrace, openBracket, closeBrace, closeBracket]

theorem scanFrom_plain {c : Nat} (plain : isPlain c = true) (stack : List (Option (List Text)))
    (t : Text) : scanFrom space stack (c :: t) = scanFrom space stack t := by
  simp only [isPlain, List.mem_cons, not_or, decide_eq_true_eq] at plain
  obtain ⟨q, ob, ol, cb, cl, -⟩ := plain
  rw [scanFrom_cons, if_neg ob, if_neg ol, if_neg (not_or.mpr ⟨cb, cl⟩), if_neg q]

theorem scanFrom_append {s : Text} (plain : ∀ c ∈ s, isPlain c = true)
    (stack : List (Option (List Text))) (t : Text) :
    scanFrom space stack (s ++ t) = scanFrom space stack t := by
  induction s with
  | nil => rfl
  | cons c s ih =>
    rw [List.cons_append, scanFrom_plain (plain c List.mem_cons_self),
      ih (fun d hd => plain d (List.mem_cons_of_mem _ hd))]

theorem isPlain_of_isSpace {c : Nat} (h : isSpace c = true) : isPlain c = true := by
  have cases_ : c = 0x20 ∨ c = 0x09 ∨ c = 0x0a ∨ c = 0x0d := by
    simpa [isSpace, or_assoc] using h
  rcases cases_ with rfl | rfl | rfl | rfl <;> decide

theorem isPlain_of_isNumeral {c : Nat} (h : isNumeral c = true) : isPlain c = true := by
  have range : c ≤ 0x65 := by
    simp only [isNumeral, isDigit, Bool.or_eq_true, Bool.and_eq_true, decide_eq_true_eq,
      List.mem_cons, List.not_mem_nil, or_false] at h
    omega
  have plain : ∀ c ≤ 0x65, isNumeral c = true → isPlain c = true := by decide
  exact plain c range h

theorem scanFrom_skipSpace (stack : List (Option (List Text))) (t : Text) :
    scanFrom space stack (skipSpace t) = scanFrom space stack t := by
  induction t with
  | nil => rfl
  | cons c t ih =>
    rw [skipSpace, List.dropWhile_cons]
    split
    · rename_i skipped
      rw [scanFrom_plain (isPlain_of_isSpace skipped)]
      exact ih
    · rfl

theorem scanFrom_scalar {t rest : Text} {tree : Tree} (h : scalar t = some (tree, rest))
    (stack : List (Option (List Text))) : scanFrom space stack t = scanFrom space stack rest := by
  rcases of_scalar h with ⟨-, rfl⟩ | ⟨-, rfl⟩ | ⟨-, rfl⟩ | ⟨s, -, read⟩
  · exact scanFrom_append (by decide) stack rest
  · exact scanFrom_append (by decide) stack rest
  · exact scanFrom_append (by decide) stack rest
  · rw [(of_number read).2]
    refine scanFrom_append (fun c member => ?_) stack rest
    rcases number_numeral read with word | numeral
    · have words : ∀ w ∈ nonFinite, ∀ c ∈ w, isPlain c = true := by decide
      exact words s word c member
    · exact isPlain_of_isNumeral (numeral c member)

theorem scanFrom_spaces {t : Text} (blank : skipSpace t = []) (stack : List (Option (List Text))) :
    scanFrom space stack t = false := by
  rw [← scanFrom_skipSpace, blank]
  rfl

theorem scanJsonString_plain {digits : Text} (plain : ∀ d ∈ digits, isHexDigit d = true) (t : Text) :
    scanJsonString (digits ++ t) =
      (scanJsonString t).map (Prod.map (fun s => digits ++ s) id) := by
  induction digits with
  | nil =>
    rw [List.nil_append]
    cases scanJsonString t <;> rfl
  | cons d digits ih =>
    have hex := plain d List.mem_cons_self
    have notQuote : d ≠ quote := fun same => absurd (same ▸ hex) (by decide)
    have notBackslash : d ≠ backslash := fun same => absurd (same ▸ hex) (by decide)
    rw [List.cons_append, scanJsonString_cons, if_neg notQuote, if_neg notBackslash,
      ih (fun c hc => plain c (List.mem_cons_of_mem _ hc)), Option.map_map]
    rfl

theorem scanJsonString_spelled {s : Text} (spelled : Spelled s) (rest : Text) :
    scanJsonString (s ++ quote :: rest) = some (s, rest) := by
  induction spelled with
  | nil => rw [List.nil_append, scanJsonString_cons, if_pos rfl]
  | plain notQuote notBackslash _ _ ih =>
    rw [List.cons_append, scanJsonString_cons, if_neg notQuote, if_neg notBackslash, ih]
    rfl
  | simple _ _ ih =>
    rw [List.cons_append, List.cons_append, scanJsonString_cons, if_neg (by decide), if_pos rfl]
    dsimp only
    rw [ih]
    rfl
  | @hex digits s _ hex _ ih =>
    rw [List.cons_append, List.cons_append, List.append_assoc, scanJsonString_cons,
      if_neg (by decide), if_pos rfl]
    dsimp only
    rw [scanJsonString_plain hex, ih]
    rfl

/-! ### The scan of a well-formed text -/

/-- Some name is among those seen before it. -/
def repeatedAmong : List Text → List Text → Bool
  | _, [] => false
  | seen, name :: names => decide (name ∈ seen) || repeatedAmong (name :: seen) names

theorem repeatedAmong_eq_false_iff (seen names : List Text) :
    repeatedAmong seen names = false ↔ names.Nodup ∧ ∀ name ∈ names, name ∉ seen := by
  induction names generalizing seen with
  | nil => simp [repeatedAmong]
  | cons name names ih =>
    simp only [repeatedAmong, Bool.or_eq_false_iff, decide_eq_false_iff_not, ih, List.mem_cons,
      not_or, List.nodup_cons, forall_eq_or_imp]
    constructor
    · rintro ⟨unseen, distinct, others⟩
      exact ⟨⟨fun member => (others name member).1 rfl, distinct⟩, unseen,
        fun other member => (others other member).2⟩
    · rintro ⟨⟨single, distinct⟩, unseen, others⟩
      exact ⟨unseen, distinct,
        fun other member => ⟨fun same => single (same ▸ member), others other member⟩⟩

theorem repeatedAmong_nil (names : List Text) : repeatedAmong [] names = decide ¬ names.Nodup := by
  rw [Bool.eq_iff_iff, ← not_iff_not, Bool.not_eq_true, repeatedAmong_eq_false_iff]
  simp

/-- What a value of a well-formed text is followed by. -/
def Closed (t : Text) : Prop :=
  skipSpace t = [] ∨ ∃ c rest, skipSpace t = c :: rest ∧ c ∈ [comma, closeBracket, closeBrace]

theorem isName_value {t : Text} (h : Closed t) : isName space t = false := by
  have passed : t.dropWhile space.skips = (skipSpace t).dropWhile space.skips := by
    have split : t = t.takeWhile isSpace ++ skipSpace t := List.takeWhile_append_dropWhile.symm
    conv_lhs => rw [split]
    rw [List.dropWhile_append_of_pos]
    intro c member
    exact space.json c (List.mem_takeWhile_imp member)
  rw [isName, passed]
  rcases h with blank | ⟨c, rest, next, listed⟩
  · rw [blank]
    rfl
  · have stops : space.skips c = false := space.stops c (by
      simp only [List.mem_cons, List.not_mem_nil, or_false] at listed ⊢
      tauto)
    have other : c ≠ colon := by
      rintro rfl
      exact absurd listed (by decide)
    rw [next, List.dropWhile_cons, stops]
    simpa using other

theorem isName_colon {t rest : Text} (h : behind colon (skipSpace t) = some rest) :
    isName space t = true := by
  have split : t = t.takeWhile isSpace ++ colon :: rest := by
    conv_lhs => rw [← List.takeWhile_append_dropWhile (p := isSpace) (l := t)]
    exact congrArg _ (of_behind h)
  have stops : space.skips colon = false := space.stops colon (by decide)
  rw [isName, split, List.dropWhile_append_of_pos
    (fun c member => space.json c (List.mem_takeWhile_imp member)), List.dropWhile_cons, stops]
  rfl

theorem closed_of_continued {α : Type} {close : Nat} (closes : close = closeBracket ∨ close = closeBrace)
    {more : Text → Option (List α × Text)} {item : α} {t : Text} {r : List α × Text}
    (h : continued close more item (skipSpace t) = some r) : Closed t := by
  unfold continued at h
  cases next : skipSpace t with
  | nil => exact .inl next
  | cons c rest =>
    refine .inr ⟨c, rest, next, ?_⟩
    rw [next] at h
    simp only [behind] at h
    by_cases closing : c = close
    · rcases closes with rfl | rfl <;> simp [closing]
    · rw [if_neg closing] at h
      by_cases separates : c = comma
      · simp [separates]
      · simp [separates] at h

section Containers

variable {α : Type} {close : Nat} (closes : close = closeBracket ∨ close = closeBrace)
  {stack : List (Option (List Text))} {frame : Option (List Text)} {found : List α → Bool}
  {body : Text → Option (List α × Text)}
  (inner : ∀ t xs rest, body t = some (xs, rest) →
    scanFrom space (frame :: stack) t = (found xs || scanFrom space stack rest))

include closes

theorem scanFrom_close (t : Text) :
    scanFrom space (frame :: stack) (close :: t) = scanFrom space stack t := by
  rcases closes with rfl | rfl
  · rw [scanFrom_cons, if_neg (by decide), if_neg (by decide), if_pos (.inr rfl)]
    rfl
  · rw [scanFrom_cons, if_neg (by decide), if_neg (by decide), if_pos (.inl rfl)]
    rfl

include inner

theorem scanFrom_continued (ends : found [] = false) {item : α} {t rest : Text} {xs : List α}
    (h : continued close body item t = some (xs, rest)) :
    ∃ ys, xs = item :: ys ∧
      scanFrom space (frame :: stack) t = (found ys || scanFrom space stack rest) := by
  unfold continued at h
  split at h
  · rename_i closed
    cases h
    refine ⟨[], rfl, ?_⟩
    rw [of_behind closed, scanFrom_close closes, ends, Bool.false_or]
  · obtain ⟨t', separated, h⟩ := Option.bind_eq_some_iff.mp h
    obtain ⟨⟨ys, rest'⟩, read, same⟩ := Option.map_eq_some_iff.mp h
    cases same
    refine ⟨ys, rfl, ?_⟩
    rw [of_behind separated, scanFrom_plain (by decide), ← scanFrom_skipSpace]
    exact inner _ _ _ read

theorem scanFrom_container (ends : found [] = false) {make : List α → Tree}
    (made : ∀ xs, (make xs).repeats id = found xs) {t rest : Text} {tree : Tree}
    (h : container close make body t = some (tree, rest)) :
    scanFrom space (frame :: stack) t = (tree.repeats id || scanFrom space stack rest) := by
  unfold container at h
  split at h
  · rename_i closed
    cases h
    rw [of_behind closed, scanFrom_close closes, made, ends, Bool.false_or]
  · obtain ⟨⟨xs, rest'⟩, read, same⟩ := Option.map_eq_some_iff.mp h
    cases same
    rw [made]
    exact inner _ _ _ read

end Containers

/-- The scan of a value, of items and of members: it finds the names spelled alike in what
it passes, and goes on behind it. -/
theorem readers_scan (fuel : Nat) :
    (∀ t tree rest, value fuel t = some (tree, rest) → Closed rest → ∀ stack,
      scanFrom space stack t = (tree.repeats id || scanFrom space stack rest)) ∧
    (∀ t xs rest, items fuel t = some (xs, rest) → ∀ stack,
      scanFrom space (none :: stack) t = (repeatsInItems id xs || scanFrom space stack rest)) ∧
    ∀ t ms rest, members fuel t = some (ms, rest) → ∀ stack seen,
      scanFrom space (some seen :: stack) t = (repeatedAmong seen (ms.map Prod.fst) ||
        repeatsInMembers id ms || scanFrom space stack rest) := by
  induction fuel with
  | zero =>
    refine ⟨fun t tree rest h => ?_, fun t xs rest h => ?_, fun t ms rest h => ?_⟩
    · cases h
    · cases h
    · cases h
  | succ fuel ih =>
    obtain ⟨ofValue, ofItems, ofMembers⟩ := ih
    refine ⟨fun t tree rest h closed stack => ?_, fun t xs rest h stack => ?_,
      fun t ms rest h stack seen => ?_⟩
    · cases t with
      | nil =>
        rw [value_nil] at h
        cases h
      | cons c t =>
        rw [value_cons] at h
        split_ifs at h with text list object
        · obtain ⟨⟨s, rest'⟩, read, same⟩ := Option.map_eq_some_iff.mp h
          cases same
          obtain ⟨spelled, rfl⟩ := of_string read
          rw [text, scanFrom_cons, if_neg (by decide), if_neg (by decide), if_neg (by decide),
            if_pos rfl, scanJsonString_spelled spelled]
          dsimp only
          rw [show isName space rest' = false from isName_value closed]
          rfl
        · rw [list, scanFrom_cons, if_neg (by decide), if_pos rfl, ← scanFrom_skipSpace]
          exact scanFrom_container (.inl rfl) (fun t xs rest read => ofItems t xs rest read stack) rfl
            (fun xs => rfl) h
        · rw [object, scanFrom_cons, if_pos rfl, ← scanFrom_skipSpace]
          have inner (t ms rest) (read : members fuel t = some (ms, rest)) :=
            ofMembers t ms rest read stack []
          refine scanFrom_container (.inr rfl) inner rfl (fun ms => ?_) h
          rw [repeatedAmong_nil]
          rfl
        · have silent : tree.repeats id = false := by
            rcases of_scalar h with ⟨rfl, -⟩ | ⟨rfl, -⟩ | ⟨rfl, -⟩ | ⟨s, rfl, -⟩ <;> rfl
          rw [silent, Bool.false_or]
          exact scanFrom_scalar h stack
    · rw [items_succ] at h
      obtain ⟨⟨item, t'⟩, read, h⟩ := Option.bind_eq_some_iff.mp h
      have inner (t xs rest) (read : items fuel t = some (xs, rest)) := ofItems t xs rest read stack
      obtain ⟨ys, rfl, later⟩ := scanFrom_continued (.inl rfl) inner rfl h
      rw [ofValue _ _ _ read (closed_of_continued (.inl rfl) h), ← scanFrom_skipSpace, later,
        repeatsInItems, Bool.or_assoc]
    · rw [members_succ] at h
      obtain ⟨t₁, quoted, afterQuote⟩ := Option.bind_eq_some_iff.mp h
      obtain ⟨⟨name, t₂⟩, named, afterName⟩ := Option.bind_eq_some_iff.mp afterQuote
      obtain ⟨t₃, separated, afterColon⟩ := Option.bind_eq_some_iff.mp afterName
      obtain ⟨⟨item, t₄⟩, read, ends⟩ := Option.bind_eq_some_iff.mp afterColon
      obtain ⟨spelled, whole⟩ := of_string named
      have inner (t xs rest) (read : members fuel t = some (xs, rest)) :=
        ofMembers t xs rest read stack (name :: seen)
      obtain ⟨ys, rfl, later⟩ := scanFrom_continued (.inr rfl) inner rfl ends
      rw [of_behind quoted, whole, scanFrom_cons, if_neg (by decide), if_neg (by decide),
        if_neg (by decide), if_pos rfl, scanJsonString_spelled spelled]
      dsimp only
      rw [show isName space t₂ = true from isName_colon separated, if_pos rfl]
      by_cases repeated : name ∈ seen
      · rw [if_pos repeated]
        simp [repeatedAmong, repeated]
      · have passed : scanFrom space (some (name :: seen) :: stack) t₂ =
            scanFrom space (some (name :: seen) :: stack) (skipSpace t₃) := by
          have next : skipSpace t₂ = colon :: t₃ := of_behind separated
          rw [← scanFrom_skipSpace, next, scanFrom_plain (by decide), scanFrom_skipSpace]
        rw [if_neg repeated, passed, ofValue _ _ _ read (closed_of_continued (.inr rfl) ends),
          ← scanFrom_skipSpace, later, List.map_cons, repeatedAmong, repeatsInMembers]
        simp only [repeated, decide_false, Bool.false_or]
        cases Tree.repeats id item <;> simp

theorem hasDuplicateMemberNames_eq {t : Text} {tree : Tree} (h : JsonText.read t = some tree) :
    hasDuplicateMemberNames space t = tree.repeats id := by
  unfold JsonText.read at h
  split at h
  · rename_i found rest valued
    split at h
    · rename_i blank
      cases h
      have closes : Closed rest := .inl (List.isEmpty_iff.mp blank)
      show scanFrom space [] t = _
      rw [← scanFrom_skipSpace, (readers_scan _).1 _ _ _ valued closes,
        scanFrom_spaces (List.isEmpty_iff.mp blank), Bool.or_false]
    · cases h
  · cases h

end VaidSuite.DuplicateNames
