import Mathlib.Data.List.Forall2
import Mathlib.Data.List.Infix

/-! Segment-bounded prefixes and unions of regions.
A prefix holds a resource when it equals it or extends it across a separator.
A boundary is a union of regions, and the empty boundary is unrestricted. -/
namespace Containment

universe u v w
variable {α : Type u} [DecidableEq α]

/-- Does `pfx` hold `r`, with the strings of `seps` reserved as separators? -/
def segmentPrefix (seps : List (List α)) (pfx r : List α) : Bool :=
  if pfx = [] then true
  else if r = pfx then true
  else if seps.any (fun s => s.isSuffixOf pfx) then pfx.isPrefixOf r
  else seps.any (fun s => (pfx ++ s).isPrefixOf r)

theorem segmentPrefix_refl (seps : List (List α)) (p : List α) : segmentPrefix seps p p = true := by
  by_cases empty : p = [] <;> simp [segmentPrefix, empty]

theorem isPrefix_of_segmentPrefix {seps : List (List α)} {p r : List α}
    (h : segmentPrefix seps p r = true) : p <+: r := by
  unfold segmentPrefix at h
  split at h
  · rename_i empty
    exact empty ▸ List.nil_prefix
  · split at h
    · rename_i same
      exact same ▸ List.prefix_refl _
    · split at h
      · exact List.isPrefixOf_iff_prefix.mp h
      · obtain ⟨s, _, hs⟩ := List.any_eq_true.mp h
        exact (List.prefix_append p s).trans (List.isPrefixOf_iff_prefix.mp hs)

/-- Extending a contained resource keeps it contained, however it is extended:
a proper prefix was already cut at a separator. -/
theorem segmentPrefix_extend {seps : List (List α)} {p r t : List α}
    (held : segmentPrefix seps p r = true) (proper : r ≠ p) (longer : r <+: t) :
    segmentPrefix seps p t = true := by
  unfold segmentPrefix at held ⊢
  split
  · rfl
  · rename_i nonempty
    rw [if_neg nonempty, if_neg proper] at held
    split
    · rfl
    · split
      · rename_i closed
        rw [if_pos closed] at held
        exact List.isPrefixOf_iff_prefix.mpr ((List.isPrefixOf_iff_prefix.mp held).trans longer)
      · rename_i open_
        rw [if_neg open_] at held
        obtain ⟨s, hs, hp⟩ := List.any_eq_true.mp held
        exact List.any_eq_true.mpr
          ⟨s, hs, List.isPrefixOf_iff_prefix.mpr ((List.isPrefixOf_iff_prefix.mp hp).trans longer)⟩

theorem segmentPrefix_trans {seps : List (List α)} {a b c : List α}
    (hab : segmentPrefix seps a b = true) (hbc : segmentPrefix seps b c = true) :
    segmentPrefix seps a c = true := by
  by_cases same : b = a
  · exact same ▸ hbc
  · exact segmentPrefix_extend hab same (isPrefix_of_segmentPrefix hbc)

section Unions

variable {β : Type v} (covers : β → β → Bool)

/-- A union of regions; the empty union is unrestricted. -/
def within (boundary : List β) (r : β) : Bool :=
  boundary.isEmpty || boundary.any (fun b => covers b r)

/-- Every region of the child is inside the parent, and an unrestricted child
needs an unrestricted parent. -/
def attenuates (parent child : List β) : Bool :=
  if child.isEmpty then parent.isEmpty else child.all (within covers parent)

variable {covers}

theorem within_trans (trans : ∀ a b c, covers a b = true → covers b c = true → covers a c = true)
    {parent child : List β} (att : attenuates covers parent child = true) {r : β}
    (held : within covers child r = true) : within covers parent r = true := by
  unfold attenuates at att
  split at att
  · simp [within, att]
  · rename_i nonempty
    have some_ : child.any (fun b => covers b r) = true := by
      simpa [within, nonempty] using held
    obtain ⟨b, hb, hbr⟩ := List.any_eq_true.mp some_
    have hparent := List.all_eq_true.mp att b hb
    rcases Bool.or_eq_true_iff.mp hparent with top | hit
    · simp [within, top]
    · obtain ⟨a, ha, hab⟩ := List.any_eq_true.mp hit
      exact Bool.or_eq_true_iff.mpr
        (.inr (List.any_eq_true.mpr ⟨a, ha, trans a b r hab hbr⟩))

theorem attenuates_trans
    (trans : ∀ a b c, covers a b = true → covers b c = true → covers a c = true)
    {a b c : List β} (hab : attenuates covers a b = true) (hbc : attenuates covers b c = true) :
    attenuates covers a c = true := by
  by_cases top : c.isEmpty = true
  · have hb : b.isEmpty = true := by simpa [attenuates, top] using hbc
    have ha : a.isEmpty = true := by simpa [attenuates, hb] using hab
    simp [attenuates, top, ha]
  · have all_b : c.all (within covers b) = true := by simpa [attenuates, top] using hbc
    have all_a : c.all (within covers a) = true :=
      List.all_eq_true.mpr (fun x hx => within_trans trans hab (List.all_eq_true.mp all_b x hx))
    simpa [attenuates, top] using all_a

theorem attenuates_refl (refl : ∀ a, covers a a = true) (boundary : List β) :
    attenuates covers boundary boundary = true := by
  by_cases top : boundary.isEmpty = true
  · simp [attenuates, top]
  · have held : boundary.all (within covers boundary) = true := by
      refine List.all_eq_true.mpr (fun b member => Bool.or_eq_true_iff.mpr (.inr ?_))
      exact List.any_eq_true.mpr ⟨b, member, refl b⟩
    simpa [attenuates, top] using held

/-- A child with regions that reaches nothing past the parent is inside it: each of
its regions is one that it reaches. -/
theorem attenuates_of_inclusion (refl : ∀ a, covers a a = true) {parent child : List β}
    (nonempty : child ≠ [])
    (included : ∀ r, within covers child r = true → within covers parent r = true) :
    attenuates covers parent child = true := by
  have regions : child.all (within covers parent) = true := by
    refine List.all_eq_true.mpr (fun b member => included b (Bool.or_eq_true_iff.mpr (.inr ?_)))
    exact List.any_eq_true.mpr ⟨b, member, refl b⟩
  have top : child.isEmpty = false := List.isEmpty_eq_false_iff.mpr nonempty
  simpa [attenuates, top] using regions

theorem within_map {γ : Type w} {covers' : γ → γ → Bool} {f : β → γ}
    (same : ∀ a b, covers' (f a) (f b) = covers a b) (boundary : List β) (r : β) :
    within covers' (boundary.map f) (f r) = within covers boundary r := by
  have each : (fun b => covers' b (f r)) ∘ f = fun b => covers b r := funext (fun b => same b r)
  rw [within, within, List.isEmpty_map, List.any_map, each]

theorem attenuates_map {γ : Type w} {covers' : γ → γ → Bool} {f : β → γ}
    (same : ∀ a b, covers' (f a) (f b) = covers a b) (parent child : List β) :
    attenuates covers' (parent.map f) (child.map f) = attenuates covers parent child := by
  have each : within covers' (parent.map f) ∘ f = within covers parent :=
    funext (within_map same parent)
  rw [attenuates, attenuates, List.isEmpty_map, List.isEmpty_map, List.all_map, each]

end Unions

section Readable

variable {β : Type v} {ε : Type w} (claim : ε → Option β)

def regions (entries : List ε) : Option (List β) := entries.mapM claim

/-- One pass over a boundary. An entry without a verdict refuses the whole of it,
even with a match already found. -/
def scan (verdict : ε → Option Bool) : List ε → Bool → Option Bool
  | [], found => some found
  | e :: entries, found =>
    match verdict e with
    | none => none
    | some held => scan verdict entries (found || held)

variable {claim}

theorem regions_cons {e : ε} {entries : List ε} {rs : List β}
    (h : regions claim (e :: entries) = some rs) :
    ∃ r qs, claim e = some r ∧ regions claim entries = some qs ∧ rs = r :: qs := by
  simp only [regions, List.mapM_cons, Option.bind_eq_bind, Option.bind_eq_some_iff,
    Option.pure_def, Option.some.injEq] at h
  obtain ⟨r, hr, qs, hqs, rfl⟩ := h
  exact ⟨r, qs, hr, hqs, rfl⟩

theorem regions_isSome (entries : List ε) :
    (regions claim entries).isSome = entries.all (fun e => (claim e).isSome) := by
  induction entries with
  | nil => rfl
  | cons e entries ih =>
    rw [List.all_cons, ← ih, regions, regions, List.mapM_cons]
    cases claim e with
    | none => rfl
    | some r => cases entries.mapM claim <;> rfl

theorem regions_isEmpty {entries : List ε} {rs : List β} (h : regions claim entries = some rs) :
    rs.isEmpty = entries.isEmpty := by
  cases entries with
  | nil => cases h; rfl
  | cons e entries =>
    obtain ⟨r, qs, _, _, rfl⟩ := regions_cons h
    rfl

theorem regions_all {entries : List ε} {rs : List β} (h : regions claim entries = some rs)
    (holds : β → Bool) : entries.all (fun e => (claim e).any holds) = rs.all holds := by
  induction entries generalizing rs with
  | nil => cases h; rfl
  | cons e entries ih =>
    obtain ⟨r, qs, hr, hqs, rfl⟩ := regions_cons h
    simp only [List.all_cons, hr, Option.any_some, ih hqs]

theorem claims_attenuate {covers : β → β → Bool} {parent child : List ε} {ps cs : List β}
    (hp : regions claim parent = some ps) (hc : regions claim child = some cs)
    {contains : β → Bool} (contains_eq : contains = within covers ps) :
    (if child.isEmpty then parent.isEmpty else child.all (fun e => (claim e).any contains)) =
      attenuates covers ps cs := by
  rw [regions_all hc, contains_eq, ← regions_isEmpty hp, ← regions_isEmpty hc, attenuates]

theorem regions_of_forall₂ {γ : Type u} {ζ : Type v} {claim' : ζ → Option γ} {f : β → γ}
    {entries : List ε} {entries' : List ζ}
    (each : List.Forall₂ (fun e' e => claim' e' = (claim e).map f) entries' entries) :
    regions claim' entries' = (regions claim entries).map (List.map f) := by
  unfold regions
  induction each with
  | nil => rfl
  | @cons e' e entries' entries here _ ih =>
    rw [List.mapM_cons, List.mapM_cons, here, ih]
    cases claim e with
    | none => rfl
    | some r => cases entries.mapM claim <;> rfl

theorem regions_map {γ : Type u} {ζ : Type v} {claim' : ζ → Option γ} {f : β → γ} {g : ε → ζ}
    (same : ∀ e, claim' (g e) = (claim e).map f) (entries : List ε) :
    regions claim' (entries.map g) = (regions claim entries).map (List.map f) :=
  regions_of_forall₂ (List.forall₂_map_left_iff.mpr (List.forall₂_same.mpr (fun e _ => same e)))

theorem scan_eq {verdict : ε → Option Bool} {holds : β → Bool}
    (reads : ∀ e, verdict e = (claim e).map holds) (entries : List ε) (found : Bool) :
    scan verdict entries found = (regions claim entries).map (fun rs => found || rs.any holds) := by
  induction entries generalizing found with
  | nil => simp [scan, regions]
  | cons e entries ih =>
    simp only [scan, reads]
    cases h : claim e with
    | none => simp [regions, List.mapM_cons, h]
    | some r =>
      simp only [Option.map_some, ih, regions, List.mapM_cons, h]
      cases entries.mapM claim <;> simp [Bool.or_assoc]

end Readable

section Units

variable {κ : Type u} {γ : Type v} {enc : κ → List γ}

/-- A spelling of characters in code units, in which the units of a text tell its first
character from all others. -/
structure Coding (enc : κ → List γ) : Prop where
  spelled : ∀ a, enc a ≠ []
  first : ∀ {a b : κ} {s t : List γ}, enc a ++ s = enc b ++ t → a = b ∧ s = t

/-- The character is one unit, and the unit stands for nothing else. -/
structure Reserved (enc : κ → List γ) (a : κ) (u : γ) : Prop where
  unit : enc a = [u]
  only : ∀ b, u ∈ enc b → b = a

namespace Coding

theorem isPrefix_iff (coding : Coding enc) (p r : List κ) :
    p.flatMap enc <+: r.flatMap enc ↔ p <+: r := by
  induction p generalizing r with
  | nil => simp
  | cons a p ih =>
    cases r with
    | nil => simp [coding.spelled a]
    | cons b r =>
      rw [List.flatMap_cons, List.flatMap_cons, List.cons_prefix_cons]
      constructor
      · rintro ⟨rest, same⟩
        rw [List.append_assoc] at same
        obtain ⟨rfl, tail⟩ := coding.first same
        exact ⟨rfl, (ih r).mp ⟨rest, tail⟩⟩
      · rintro ⟨rfl, held⟩
        exact (List.prefix_append_right_inj _).mpr ((ih r).mpr held)

theorem flatMap_inj (coding : Coding enc) (p r : List κ) :
    p.flatMap enc = r.flatMap enc ↔ p = r := by
  refine ⟨fun same => ?_, fun same => congrArg (List.flatMap enc) same⟩
  have there := (coding.isPrefix_iff p r).mp (same ▸ List.prefix_refl _)
  have back := (coding.isPrefix_iff r p).mp (same ▸ List.prefix_refl _)
  exact there.eq_of_length (Nat.le_antisymm there.length_le back.length_le)

theorem isSuffix_iff (coding : Coding enc) {a : κ} {u : γ} (reserved : Reserved enc a u)
    (p : List κ) : [u] <:+ p.flatMap enc ↔ [a] <:+ p := by
  rcases List.eq_nil_or_concat p with rfl | ⟨q, b, rfl⟩
  · simp
  · obtain ⟨v, last⟩ : ∃ v, (enc b).getLast? = some v :=
      Option.isSome_iff_exists.mp (List.getLast?_isSome.mpr (coding.spelled b))
    rw [List.concat_eq_append, List.flatMap_append, List.flatMap_singleton,
      List.singleton_suffix_iff_getLast?_eq_some, List.getLast?_append, last, Option.some_or,
      Option.some_inj, List.singleton_suffix_append_singleton_iff]
    constructor
    · rintro rfl
      exact (reserved.only b (List.mem_of_getLast? last)).symm
    · rintro rfl
      rw [reserved.unit, List.getLast?_singleton, Option.some_inj] at last
      exact last.symm

theorem any_isSuffixOf [DecidableEq κ] [DecidableEq γ] (coding : Coding enc) {seps : List κ}
    {units : List γ} (reserved : List.Forall₂ (Reserved enc) seps units) (p : List κ) :
    (units.map ([·])).any (fun s => s.isSuffixOf (p.flatMap enc)) =
      (seps.map ([·])).any (fun s => s.isSuffixOf p) := by
  induction reserved with
  | nil => rfl
  | cons here _ ih =>
    have one := Bool.eq_iff_iff.mpr ((List.isSuffixOf_iff_suffix.trans
      (coding.isSuffix_iff here p)).trans List.isSuffixOf_iff_suffix.symm)
    rw [List.map_cons, List.map_cons, List.any_cons, List.any_cons, one, ih]

theorem isPrefixOf_eq [DecidableEq κ] [DecidableEq γ] (coding : Coding enc) (p r : List κ) :
    (p.flatMap enc).isPrefixOf (r.flatMap enc) = p.isPrefixOf r := by
  rw [Bool.eq_iff_iff, List.isPrefixOf_iff_prefix, List.isPrefixOf_iff_prefix, coding.isPrefix_iff]

theorem any_isPrefixOf [DecidableEq κ] [DecidableEq γ] (coding : Coding enc) {seps : List κ}
    {units : List γ} (reserved : List.Forall₂ (Reserved enc) seps units) (p r : List κ) :
    (units.map ([·])).any (fun s => (p.flatMap enc ++ s).isPrefixOf (r.flatMap enc)) =
      (seps.map ([·])).any (fun s => (p ++ s).isPrefixOf r) := by
  induction reserved with
  | nil => rfl
  | @cons a u _ _ here _ ih =>
    have longer : p.flatMap enc ++ [u] = (p ++ [a]).flatMap enc := by
      rw [List.flatMap_append, List.flatMap_singleton, here.unit]
    rw [List.map_cons, List.map_cons, List.any_cons, List.any_cons, longer, coding.isPrefixOf_eq, ih]

end Coding

theorem segmentPrefix_flatMap [DecidableEq κ] [DecidableEq γ] (coding : Coding enc) {seps : List κ}
    {units : List γ} (reserved : List.Forall₂ (Reserved enc) seps units) (p r : List κ) :
    segmentPrefix (units.map ([·])) (p.flatMap enc) (r.flatMap enc) =
      segmentPrefix (seps.map ([·])) p r := by
  have empty : (p.flatMap enc = []) = (p = []) := propext (coding.flatMap_inj p [])
  have same : (r.flatMap enc = p.flatMap enc) = (r = p) := propext (coding.flatMap_inj r p)
  simp only [segmentPrefix, empty, same, coding.any_isSuffixOf reserved,
    coding.any_isPrefixOf reserved, coding.isPrefixOf_eq]

theorem splitOn_append [BEq γ] [LawfulBEq γ] {u : γ} {block : List γ} (without : u ∉ block)
    (rest : List γ) : (block ++ rest).splitOn u = (rest.splitOn u).modifyHead (block ++ ·) := by
  induction block with
  | nil => exact (List.modifyHead_id).symm ▸ rfl
  | cons v block ih =>
    obtain ⟨other, without⟩ := not_or.mp (List.mem_cons.not.mp without)
    rw [List.cons_append, List.splitOn_cons_eq_if_modifyHead, if_neg (by simpa using Ne.symm other),
      ih without, List.modifyHead_modifyHead]
    rfl

theorem splitOn_flatMap [BEq κ] [LawfulBEq κ] [BEq γ] [LawfulBEq γ] {a : κ} {u : γ}
    (reserved : Reserved enc a u) (cs : List κ) :
    (cs.flatMap enc).splitOn u = (cs.splitOn a).map (List.flatMap enc) := by
  induction cs with
  | nil => rfl
  | cons c cs ih =>
    rw [List.flatMap_cons, List.splitOn_cons_eq_if_modifyHead]
    by_cases same : c = a
    · rw [if_pos (beq_iff_eq.mpr same), same, reserved.unit, List.singleton_append,
        List.splitOn_cons_eq_if_modifyHead, if_pos (beq_self_eq_true u), ih]
      rfl
    · rw [if_neg (by simpa using same), splitOn_append (fun member => same (reserved.only c member)),
        ih]
      cases cs.splitOn a <;> rfl

theorem head?_flatMap (spelled : ∀ c, enc c ≠ []) {a : κ} {u : γ} (reserved : Reserved enc a u)
    (cs : List κ) : (cs.flatMap enc).head? = some u ↔ cs.head? = some a := by
  cases cs with
  | nil => simp
  | cons c cs =>
    obtain ⟨v, us, spelling⟩ := List.exists_cons_of_ne_nil (spelled c)
    rw [List.flatMap_cons, spelling, List.cons_append, List.head?_cons, List.head?_cons,
      Option.some_inj, Option.some_inj]
    constructor
    · rintro rfl
      exact reserved.only c (spelling ▸ List.mem_cons_self)
    · rintro rfl
      exact (List.cons.inj (spelling.symm.trans reserved.unit)).1

end Units

end Containment
