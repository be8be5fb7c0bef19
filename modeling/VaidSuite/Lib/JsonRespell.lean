import VaidSuite.Lib.JsonReader

/-! The same JSON text in other codes. A reader that only looks at ASCII reads the same tree
from a text whose other codes are respelled, as code points are in UTF-16. -/
namespace JsonText

/-- A respelling of codes: ASCII stays, and anything else becomes codes outside ASCII. -/
structure Respelling (enc : Nat → Text) : Prop where
  ascii : ∀ c < 0x80, enc c = [c]
  outside : ∀ c, 0x80 ≤ c → ∃ u us, enc c = u :: us ∧ 0x80 ≤ u ∧ ∀ v ∈ us, 0x80 ≤ v

variable {enc : Nat → Text}

/-- The text in the other codes. -/
def respell (enc : Nat → Text) (t : Text) : Text := t.flatMap enc

@[simp] theorem respell_nil : respell enc [] = [] := rfl

@[simp] theorem respell_append (s t : Text) : respell enc (s ++ t) = respell enc s ++ respell enc t :=
  List.flatMap_append

theorem find?_congr {α : Type*} {p q : α → Bool} {items : List α} (same : ∀ a ∈ items, p a = q a) :
    items.find? p = items.find? q := by
  induction items with
  | nil => rfl
  | cons a items ih =>
    rw [List.find?_cons, List.find?_cons, same a List.mem_cons_self,
      ih (fun b hb => same b (List.mem_cons_of_mem _ hb))]

mutual

/-- The tree with its strings in the other codes. -/
def Tree.respelled (enc : Nat → Text) : Tree → Tree
  | .str spelling => .str (respell enc spelling)
  | .arr items => .arr (respelledItems enc items)
  | .obj members => .obj (respelledMembers enc members)
  | t => t

def respelledItems (enc : Nat → Text) : List Tree → List Tree
  | [] => []
  | t :: items => t.respelled enc :: respelledItems enc items

def respelledMembers (enc : Nat → Text) : List (Text × Tree) → List (Text × Tree)
  | [] => []
  | (name, t) :: members => (respell enc name, t.respelled enc) :: respelledMembers enc members

end

theorem respelledItems_eq (items : List Tree) :
    respelledItems enc items = items.map (Tree.respelled enc) := by
  induction items with
  | nil => rw [respelledItems, List.map_nil]
  | cons t items ih => rw [respelledItems, ih, List.map_cons]

theorem respelledMembers_eq (members : List (Text × Tree)) :
    respelledMembers enc members = members.map (Prod.map (respell enc) (Tree.respelled enc)) := by
  induction members with
  | nil => rw [respelledMembers, List.map_nil]
  | cons m members ih =>
    obtain ⟨name, t⟩ := m
    rw [respelledMembers, ih, List.map_cons]
    rfl

namespace Respelling

theorem cons_ascii (h : Respelling enc) {c : Nat} (low : c < 0x80) (t : Text) :
    respell enc (c :: t) = c :: respell enc t := by
  rw [respell, List.flatMap_cons, h.ascii c low]
  rfl

theorem cons_outside (h : Respelling enc) {c : Nat} (high : ¬ c < 0x80) (t : Text) :
    ∃ u us, respell enc (c :: t) = u :: (us ++ respell enc t) ∧ 0x80 ≤ u ∧ (∀ v ∈ us, 0x80 ≤ v) ∧
      enc c = u :: us := by
  obtain ⟨u, us, spelled, outside, rest⟩ := h.outside c (by omega)
  exact ⟨u, us, by rw [respell, List.flatMap_cons, spelled]; rfl, outside, rest, spelled⟩

theorem ascii_text (h : Respelling enc) {t : Text} (low : ∀ c ∈ t, c < 0x80) :
    respell enc t = t := by
  induction t with
  | nil => rfl
  | cons c t ih =>
    rw [h.cons_ascii (low c List.mem_cons_self), ih (fun d hd => low d (List.mem_cons_of_mem _ hd))]

theorem uncons (h : Respelling enc) {t rest : Text} {c : Nat} (low : c < 0x80)
    (spelled : respell enc t = c :: rest) : ∃ t', t = c :: t' ∧ rest = respell enc t' := by
  cases t with
  | nil => cases spelled
  | cons d t =>
    by_cases ascii : d < 0x80
    · rw [h.cons_ascii ascii] at spelled
      obtain ⟨rfl, same⟩ := List.cons.inj spelled
      exact ⟨t, rfl, same.symm⟩
    · obtain ⟨u, us, respelled, outside, _⟩ := h.cons_outside ascii t
      rw [respelled] at spelled
      have same := (List.cons.inj spelled).1
      omega

theorem unappend (h : Respelling enc) {word t rest : Text} (low : ∀ c ∈ word, c < 0x80)
    (spelled : respell enc t = word ++ rest) : ∃ t', t = word ++ t' ∧ rest = respell enc t' := by
  induction word generalizing t with
  | nil => exact ⟨t, rfl, spelled.symm⟩
  | cons c word ih =>
    obtain ⟨t₁, rfl, same⟩ := h.uncons (low c List.mem_cons_self) spelled
    obtain ⟨t₂, rfl, rest_⟩ := ih (fun d hd => low d (List.mem_cons_of_mem _ hd)) same.symm
    exact ⟨t₂, rfl, rest_⟩

section Spans

variable (h : Respelling enc) {p : Nat → Bool} (low : ∀ c, p c = true → c < 0x80)

include h low in
theorem dropWhile (t : Text) : (respell enc t).dropWhile p = respell enc (t.dropWhile p) := by
  induction t with
  | nil => rfl
  | cons c t ih =>
    by_cases ascii : c < 0x80
    · rw [h.cons_ascii ascii, List.dropWhile_cons, List.dropWhile_cons, ih]
      split
      · rfl
      · rw [h.cons_ascii ascii]
    · obtain ⟨u, us, spelled, outside, _⟩ := h.cons_outside ascii t
      have refused : ∀ c, ¬ c < 0x80 → p c = false := fun c high =>
        Bool.eq_false_iff.mpr (fun holds => high (low c holds))
      rw [List.dropWhile_cons, refused c ascii, spelled, List.dropWhile_cons,
        refused u (by omega)]
      exact spelled.symm

include h low in
theorem takeWhile (t : Text) : (respell enc t).takeWhile p = t.takeWhile p := by
  induction t with
  | nil => rfl
  | cons c t ih =>
    by_cases ascii : c < 0x80
    · rw [h.cons_ascii ascii, List.takeWhile_cons, List.takeWhile_cons, ih]
    · obtain ⟨u, us, spelled, outside, _⟩ := h.cons_outside ascii t
      have refused : ∀ c, ¬ c < 0x80 → p c = false := fun c high =>
        Bool.eq_false_iff.mpr (fun holds => high (low c holds))
      rw [List.takeWhile_cons, refused c ascii, spelled, List.takeWhile_cons,
        refused u (by omega)]
      rfl

end Spans

theorem isSpace_ascii (c : Nat) (space : isSpace c = true) : c < 0x80 := by
  simp only [isSpace, Bool.or_eq_true, beq_iff_eq] at space
  omega

theorem isDigit_ascii (c : Nat) (digit : isDigit c = true) : c < 0x80 := by
  simp only [isDigit, Bool.and_eq_true, decide_eq_true_eq] at digit
  omega

theorem isHexDigit_ascii (c : Nat) (digit : isHexDigit c = true) : c < 0x80 := by
  simp only [isHexDigit, isDigit, Bool.or_eq_true, Bool.and_eq_true, decide_eq_true_eq] at digit
  omega

variable (h : Respelling enc)

include h

theorem skipSpace_eq (t : Text) : skipSpace (respell enc t) = respell enc (skipSpace t) :=
  h.dropWhile isSpace_ascii t

theorem digits_eq (t : Text) : digits (respell enc t) = Prod.map id (respell enc) (digits t) :=
  Prod.ext (h.takeWhile isDigit_ascii t) (h.dropWhile isDigit_ascii t)

theorem digitsAfter_eq {lead : Text} (low : ∀ c ∈ lead, c < 0x80) (t : Text) :
    digitsAfter lead (respell enc t) = Prod.map id (respell enc) (digitsAfter lead t) := by
  unfold digitsAfter
  rw [h.digits_eq]
  rcases digits t with ⟨_ | ⟨d, ds⟩, rest⟩
  · have same := h.ascii_text low
    simp [same]
  · rfl

theorem fractionPart_eq (t : Text) :
    fractionPart (respell enc t) = Prod.map id (respell enc) (fractionPart t) := by
  cases t with
  | nil => rfl
  | cons c t =>
    rw [fractionPart_cons]
    by_cases ascii : c < 0x80
    · rw [h.cons_ascii ascii, fractionPart_cons, h.digitsAfter_eq (by decide)]
      split
      · rfl
      · exact Prod.ext rfl (h.cons_ascii ascii t).symm
    · obtain ⟨u, us, spelled, outside, _⟩ := h.cons_outside ascii t
      rw [spelled, fractionPart_cons, if_neg (by omega), if_neg (by omega)]
      exact Prod.ext rfl spelled.symm

theorem exponentDigits_eq {e : Nat} (low : e < 0x80) (t : Text) :
    exponentDigits e (respell enc t) = Prod.map id (respell enc) (exponentDigits e t) := by
  have lead : ∀ c ∈ [e], c < 0x80 := by simpa using low
  cases t with
  | nil => exact h.digitsAfter_eq lead []
  | cons sign t =>
    unfold exponentDigits
    by_cases ascii : sign < 0x80
    · rw [h.cons_ascii ascii]
      dsimp only
      rw [h.digitsAfter_eq (by simpa using ⟨low, ascii⟩), ← h.cons_ascii ascii,
        h.digitsAfter_eq lead]
      split <;> rfl
    · obtain ⟨u, us, spelled, outside, _⟩ := h.cons_outside ascii t
      rw [spelled]
      dsimp only
      rw [if_neg (by omega), if_neg (by omega), ← spelled, h.digitsAfter_eq lead]

theorem exponentPart_eq (t : Text) :
    exponentPart (respell enc t) = Prod.map id (respell enc) (exponentPart t) := by
  cases t with
  | nil => rfl
  | cons e t =>
    rw [exponentPart_cons]
    by_cases ascii : e < 0x80
    · rw [h.cons_ascii ascii, exponentPart_cons, h.exponentDigits_eq ascii]
      split
      · rfl
      · exact Prod.ext rfl (h.cons_ascii ascii t).symm
    · obtain ⟨u, us, spelled, outside, _⟩ := h.cons_outside ascii t
      rw [spelled, exponentPart_cons, if_neg (by omega), if_neg (by omega)]
      exact Prod.ext rfl spelled.symm

theorem unsigned_eq (t : Text) :
    unsigned (respell enc t) = (unsigned t).map (Prod.map id (respell enc)) := by
  cases t with
  | nil => rfl
  | cons c t =>
    by_cases ascii : c < 0x80
    · have whole : (if c = 0x30 then ([c], respell enc t)
          else Prod.map (fun ds => c :: ds) id (digits (respell enc t))) =
          Prod.map id (respell enc) (if c = 0x30 then ([c], t)
            else Prod.map (fun ds => c :: ds) id (digits t)) := by
        rw [h.digits_eq]
        split <;> rfl
      rw [h.cons_ascii ascii]
      simp only [unsigned, whole, Prod.map_snd, Prod.map_fst, h.fractionPart_eq, h.exponentPart_eq]
      split <;> rfl
    · obtain ⟨u, us, spelled, outside, _⟩ := h.cons_outside ascii t
      have refused : ∀ c, ¬ c < 0x80 → isDigit c = false := fun c high =>
        Bool.eq_false_iff.mpr (fun digit => high (isDigit_ascii c digit))
      rw [spelled]
      simp only [unsigned, refused c ascii, refused u (by omega), Bool.not_false, if_true,
        Option.map_none]

theorem isPrefixOf_eq {w : Text} (low : ∀ c ∈ w, c < 0x80) (t : Text) :
    w.isPrefixOf (respell enc t) = w.isPrefixOf t := by
  induction w generalizing t with
  | nil => simp
  | cons d w ih =>
    cases t with
    | nil => rfl
    | cons c t =>
      by_cases ascii : c < 0x80
      · rw [h.cons_ascii ascii, List.isPrefixOf, List.isPrefixOf,
          ih (fun e he => low e (List.mem_cons_of_mem _ he))]
      · obtain ⟨u, us, spelled, outside, _⟩ := h.cons_outside ascii t
        have first := low d List.mem_cons_self
        rw [spelled, List.isPrefixOf, List.isPrefixOf, beq_eq_false_iff_ne.mpr (by omega),
          beq_eq_false_iff_ne.mpr (by omega)]
        rfl

theorem drop_eq {w : Text} (low : ∀ c ∈ w, c < 0x80) {t : Text} (leads : w.isPrefixOf t = true) :
    (respell enc t).drop w.length = respell enc (t.drop w.length) := by
  obtain ⟨rest, rfl⟩ := List.isPrefixOf_iff_prefix.mp leads
  rw [respell_append, h.ascii_text low, List.drop_left, List.drop_left]

theorem number_eq (t : Text) :
    number (respell enc t) = (number t).map (Prod.map id (respell enc)) := by
  have low : ∀ w ∈ nonFinite, ∀ c ∈ w, c < 0x80 := by decide
  have words : nonFinite.find? (fun w => w.isPrefixOf (respell enc t)) =
      nonFinite.find? (fun w => w.isPrefixOf t) :=
    find?_congr (fun w member => h.isPrefixOf_eq (low w member) t)
  rw [JsonText.number_eq, JsonText.number_eq, words]
  cases found : nonFinite.find? (fun w => w.isPrefixOf t) with
  | some w =>
    have leads : w.isPrefixOf t = true := by simpa using List.find?_some found
    simp only [h.drop_eq (low w (List.mem_of_find?_eq_some found)) leads]
    rfl
  | none =>
    cases t with
    | nil => rfl
    | cons c t =>
      by_cases ascii : c < 0x80
      · rw [h.cons_ascii ascii]
        simp only [signed, h.unsigned_eq, ← h.cons_ascii ascii]
        split
        · cases unsigned t <;> rfl
        · rfl
      · obtain ⟨u, us, spelled, outside, _⟩ := h.cons_outside ascii t
        have here : ¬ u = 0x2d := by omega
        have there : ¬ c = 0x2d := by omega
        rw [spelled]
        simp only [signed, here, there, if_false, ← spelled, h.unsigned_eq]

theorem after_eq {w : Text} (low : ∀ c ∈ w, c < 0x80) (t : Text) :
    after w (respell enc t) = (after w t).map (respell enc) := by
  unfold after
  rw [h.isPrefixOf_eq low]
  split
  · rename_i leads
    rw [h.drop_eq low leads]
    rfl
  · rfl

theorem scalar_eq (t : Text) :
    scalar (respell enc t) = (scalar t).map (Prod.map (Tree.respelled enc) (respell enc)) := by
  unfold scalar
  rw [h.after_eq (by decide), h.after_eq (by decide), h.after_eq (by decide), h.number_eq]
  cases after (codes "null") t with
  | some rest => rfl
  | none =>
    cases after (codes "true") t with
    | some rest => rfl
    | none =>
      cases after (codes "false") t with
      | some rest => rfl
      | none => cases number t <;> rfl

theorem hexEscape_eq (t : Text) :
    hexEscape (respell enc t) = (hexEscape t).map (Prod.map id (respell enc)) := by
  have ascii : ∀ digits : Text, (∀ d ∈ digits, isHexDigit d = true) → ∀ d ∈ digits, d < 0x80 :=
    fun _ hex d member => isHexDigit_ascii d (hex d member)
  cases escaped : hexEscape t with
  | some e =>
    obtain ⟨digits, rest⟩ := e
    obtain ⟨rfl, four, hex⟩ := hexEscape_eq_some escaped
    rw [respell_append, h.ascii_text (ascii _ hex), hexEscape_append four hex]
    rfl
  | none =>
    cases other : hexEscape (respell enc t) with
    | none => rfl
    | some e =>
      obtain ⟨digits, rest⟩ := e
      obtain ⟨spelled, four, hex⟩ := hexEscape_eq_some other
      obtain ⟨rest, rfl, _⟩ := h.unappend (ascii _ hex) spelled
      rw [hexEscape_append four hex] at escaped
      cases escaped

theorem string_eq (t : Text) :
    string (respell enc t) = (string t).map (Prod.map (respell enc) (respell enc)) := by
  have simple : ∀ e ∈ simpleEscapes, e < 0x80 := by decide
  induction length : t.length using Nat.strongRecOn generalizing t with
  | ind n ih =>
    subst length
    cases t with
    | nil => rfl
    | cons c t =>
      have rest := ih t.length (Nat.lt_succ_self _) t rfl
      by_cases ascii : c < 0x80
      · rw [h.cons_ascii ascii, string_cons, string_cons, rest]
        split_ifs with ended escaped low
        · rfl
        · cases t with
          | nil => rfl
          | cons e t =>
            have after := ih t.length (by simp only [List.length_cons]; omega) t rfl
            by_cases low : e < 0x80
            · rw [h.cons_ascii low]
              dsimp only
              rw [after, h.hexEscape_eq]
              split_ifs
              · cases string t with
                | none => rfl
                | some s =>
                  simp only [Option.map_some, Prod.map, h.cons_ascii ascii, h.cons_ascii low, id]
              · cases found : hexEscape t with
                | none => rfl
                | some d =>
                  obtain ⟨digits, behind⟩ := d
                  obtain ⟨rfl, _, hex⟩ := hexEscape_eq_some found
                  have behind_ := ih behind.length (by simp; omega) behind rfl
                  have same : respell enc digits = digits :=
                    h.ascii_text (fun d member => isHexDigit_ascii d (hex d member))
                  simp only [Option.map_some, Option.bind_some, Prod.map, id, behind_]
                  cases string behind with
                  | none => rfl
                  | some s =>
                    simp only [Option.map_some, Prod.map, h.cons_ascii ascii, h.cons_ascii low,
                      respell_append, same, id]
              · rfl
            · obtain ⟨u, us, spelled, outside, _⟩ := h.cons_outside low t
              have strange : ∀ e, ¬ e < 0x80 → e ∉ simpleEscapes := fun e high member =>
                high (simple e member)
              rw [spelled]
              dsimp only
              rw [if_neg (strange u (by omega)), if_neg (by omega), if_neg (strange e low),
                if_neg (by omega)]
              rfl
        · rfl
        · cases string t with
          | none => rfl
          | some s => simp only [Option.map_some, Prod.map, h.cons_ascii ascii, id]
      · obtain ⟨u, us, spelled, outside, others, encoded⟩ := h.cons_outside ascii t
        have plain := string_plain (List.forall_mem_cons.mpr ⟨outside, others⟩) (respell enc t)
        have here := string_plain (List.forall_mem_singleton.mpr (show 0x80 ≤ c by omega)) t
        rw [List.cons_append] at plain
        rw [List.singleton_append] at here
        rw [spelled, plain, here, rest, Option.map_map, Option.map_map]
        refine congrArg (fun f => (string t).map f) (funext (fun s => Prod.ext ?_ rfl))
        have first : respell enc (c :: s.1) = enc c ++ respell enc s.1 := List.flatMap_cons
        rw [Function.comp_apply, Function.comp_apply, Prod.map_fst, Prod.map_fst, Prod.map_fst,
          Prod.map_fst, List.singleton_append, first, encoded]

theorem behind_eq {c : Nat} (low : c < 0x80) (t : Text) :
    behind c (respell enc t) = (behind c t).map (respell enc) := by
  cases t with
  | nil => rfl
  | cons d t =>
    by_cases ascii : d < 0x80
    · rw [h.cons_ascii ascii, behind, behind]
      split <;> rfl
    · obtain ⟨u, us, spelled, outside, _⟩ := h.cons_outside ascii t
      rw [spelled, behind, behind, if_neg (by omega), if_neg (by omega)]
      rfl

omit h in
def Agree {α β : Type} (enc : Nat → Text) (f : α → β) (reads : Text → Option (α × Text))
    (reads' : Text → Option (β × Text)) : Prop :=
  ∀ t, reads' (respell enc t) = (reads t).map (Prod.map f (respell enc))

theorem container_eq {α : Type} {close : Nat} (low : close < 0x80) (make : List α → Tree)
    {f : α → α} (made : ∀ xs, make (xs.map f) = (make xs).respelled enc)
    {body : Text → Option (List α × Text)} (agree : Agree enc (List.map f) body body) :
    Agree enc (Tree.respelled enc) (container close make body) (container close make body) := by
  intro t
  unfold container
  rw [h.behind_eq low, agree]
  cases behind close t with
  | some inner => exact congrArg (fun v => some (v, respell enc inner)) (made [])
  | none =>
    cases body t with
    | none => rfl
    | some r => exact congrArg (fun v => some (v, respell enc r.2)) (made r.1)

theorem continued_eq {α : Type} {close : Nat} (low : close < 0x80) {f : α → α}
    {more : Text → Option (List α × Text)} (agree : Agree enc (List.map f) more more) (item : α) :
    Agree enc (List.map f) (continued close more item) (continued close more (f item)) := by
  intro t
  unfold continued
  rw [h.behind_eq low, h.behind_eq (show comma < 0x80 by decide)]
  cases behind close t with
  | some rest => rfl
  | none =>
    cases behind comma t with
    | none => rfl
    | some rest =>
      simp only [Option.map_some, Option.map_none, Option.bind_some, h.skipSpace_eq, agree _]
      cases more (skipSpace rest) <;> rfl

theorem readers_eq (fuel : Nat) :
    Agree enc (Tree.respelled enc) (value fuel) (value fuel) ∧
      Agree enc (List.map (Tree.respelled enc)) (items fuel) (items fuel) ∧
        Agree enc (List.map (Prod.map (respell enc) (Tree.respelled enc))) (members fuel)
          (members fuel) := by
  induction fuel with
  | zero => exact ⟨fun _ => rfl, fun _ => rfl, fun _ => rfl⟩
  | succ fuel ih =>
    obtain ⟨valueAgrees, itemsAgree, membersAgree⟩ := ih
    refine ⟨fun t => ?_, fun t => ?_, fun t => ?_⟩
    · have arrays := h.container_eq (show closeBracket < 0x80 by decide) Tree.arr
        (fun xs => by rw [Tree.respelled, respelledItems_eq]) itemsAgree
      have objects := h.container_eq (show closeBrace < 0x80 by decide) Tree.obj
        (fun xs => by rw [Tree.respelled, respelledMembers_eq]) membersAgree
      cases t with
      | nil => rw [respell_nil, value_nil, Option.map_none]
      | cons c t =>
        by_cases ascii : c < 0x80
        · rw [h.cons_ascii ascii, value_cons, value_cons, h.string_eq, h.skipSpace_eq, arrays,
            objects, ← h.cons_ascii ascii, h.scalar_eq]
          split_ifs
          · cases string t <;> rfl
          · rfl
          · rfl
          · rfl
        · obtain ⟨u, us, spelled, outside, _⟩ := h.cons_outside ascii t
          have plain : ∀ c f t, ¬ c < 0x80 → value (f + 1) (c :: t) = scalar (c :: t) := by
            intro c f t high
            have other : ∀ d, d < 0x80 → c ≠ d := fun d low same => high (same ▸ low)
            rw [value_cons, if_neg (other _ (by decide)), if_neg (other _ (by decide)),
              if_neg (other _ (by decide))]
          rw [spelled, plain u fuel _ (by omega), plain c fuel t ascii, ← spelled, h.scalar_eq]
    · rw [items_succ, items_succ, valueAgrees]
      cases value fuel t with
      | none => rfl
      | some v =>
        have next := h.continued_eq (show closeBracket < 0x80 by decide) itemsAgree v.1
        simp only [Option.map_some, Option.bind_some, Prod.map_fst, Prod.map_snd, h.skipSpace_eq,
          next _]
    · rw [members_succ, members_succ, h.behind_eq (show quote < 0x80 by decide)]
      cases behind quote t with
      | none => rfl
      | some t =>
        simp only [Option.map_some, Option.bind_some, h.string_eq]
        cases string t with
        | none => rfl
        | some name =>
          simp only [Option.map_some, Option.bind_some, Prod.map_fst, Prod.map_snd, h.skipSpace_eq,
            h.behind_eq (show colon < 0x80 by decide)]
          cases behind colon (skipSpace name.2) with
          | none => rfl
          | some rest =>
            simp only [Option.map_some, Option.bind_some, h.skipSpace_eq, valueAgrees _]
            cases value fuel (skipSpace rest) with
            | none => rfl
            | some v =>
              have next := h.continued_eq (show closeBrace < 0x80 by decide) membersAgree
                (name.1, v.1)
              simp only [Option.map_some, Option.bind_some, Prod.map_fst, Prod.map_snd,
                h.skipSpace_eq]
              exact next _

theorem length_le (t : Text) : t.length ≤ (respell enc t).length := by
  induction t with
  | nil => exact Nat.le_refl 0
  | cons c t ih =>
    have nonempty : 1 ≤ (enc c).length := by
      by_cases ascii : c < 0x80
      · rw [h.ascii c ascii]
        exact Nat.le_refl 1
      · obtain ⟨u, us, spelled, _⟩ := h.outside c (by omega)
        rw [spelled, List.length_cons]
        omega
    rw [respell, List.flatMap_cons, List.length_append, List.length_cons]
    exact (Nat.add_comm _ _).trans_le (Nat.add_le_add nonempty ih)

theorem isEmpty_respell (t : Text) : (respell enc t).isEmpty = t.isEmpty := by
  cases t with
  | nil => rfl
  | cons c t =>
    have longer := h.length_le (c :: t)
    rw [List.length_cons] at longer
    cases spelled : respell enc (c :: t) with
    | nil =>
      rw [spelled, List.length_nil] at longer
      omega
    | cons => rfl

theorem read_eq (t : Text) : read (respell enc t) = (read t).map (Tree.respelled enc) := by
  have longer := h.length_le (skipSpace t)
  have enough : value (2 * (respell enc (skipSpace t)).length + 1) (skipSpace t) =
      value (2 * (skipSpace t).length + 1) (skipSpace t) := value_fuel (by omega)
  unfold read
  rw [h.skipSpace_eq, (h.readers_eq _).1 (skipSpace t), ← enough]
  cases value (2 * (respell enc (skipSpace t)).length + 1) (skipSpace t) with
  | none => rfl
  | some v =>
    obtain ⟨tree, rest⟩ := v
    simp only [Option.map_some, Prod.map_apply, h.skipSpace_eq]
    rw [h.isEmpty_respell]
    split <;> rfl

end Respelling

section Repeats

mutual

theorem repeats_respelled (injective : Function.Injective (respell enc)) :
    ∀ t : Tree, (t.respelled enc).repeats id = t.repeats id
  | .null | .bool _ | .num _ | .str _ => by simp [Tree.respelled, Tree.repeats]
  | .arr items => by
    rw [Tree.respelled, Tree.repeats, Tree.repeats]
    exact repeatsInItems_respelled injective items
  | .obj members => by
    have names : (respelledMembers enc members).map (fun m => id m.1) =
        (members.map (fun m => id m.1)).map (respell enc) := by
      rw [respelledMembers_eq, List.map_map, List.map_map]
      rfl
    rw [Tree.respelled, Tree.repeats, Tree.repeats, names,
      repeatsInMembers_respelled injective members]
    simp only [List.nodup_map_iff injective]

theorem repeatsInItems_respelled (injective : Function.Injective (respell enc)) :
    ∀ items : List Tree,
      repeatsInItems id (respelledItems enc items) = repeatsInItems id items
  | [] => rfl
  | t :: items => by
    rw [respelledItems, repeatsInItems, repeatsInItems, repeats_respelled injective t,
      repeatsInItems_respelled injective items]

theorem repeatsInMembers_respelled (injective : Function.Injective (respell enc)) :
    ∀ members : List (Text × Tree),
      repeatsInMembers id (respelledMembers enc members) = repeatsInMembers id members
  | [] => rfl
  | (name, t) :: members => by
    rw [respelledMembers, repeatsInMembers, repeatsInMembers, repeats_respelled injective t,
      repeatsInMembers_respelled injective members]

end

end Repeats

end JsonText
