import Mathlib.Data.List.Induction
import VaidSuite.Lib.SortedMap

/-! Maps that list their keys in the order they were first set. Setting a key again
keeps its place. -/
namespace InsertionMap

universe u v w
variable {κ : Type u} {α : Type v} {β : Type w} [DecidableEq κ]

def set (k : κ) (v : α) : List (κ × α) → List (κ × α)
  | [] => [(k, v)]
  | (k', v') :: m => if k' = k then (k, v) :: m else (k', v') :: set k v m

/-- Values under the keys they name, set one after the other. -/
def ofList (key : α → κ) (values : List α) : List (κ × α) :=
  values.foldl (fun m v => set (key v) v m) []

theorem ofList_concat (key : α → κ) (values : List α) (v : α) :
    ofList key (values ++ [v]) = set (key v) v (ofList key values) := by
  rw [ofList, List.foldl_append]
  rfl

theorem lookup_set_self [BEq κ] [LawfulBEq κ] (k : κ) (v : α) (m : List (κ × α)) : (set k v m).lookup k = some v := by
  induction m with
  | nil => simp [set]
  | cons e m ih =>
    obtain ⟨k', v'⟩ := e
    by_cases same : k' = k
    · simp [set, same]
    · have other : (k == k') = false := beq_eq_false_iff_ne.mpr (Ne.symm same)
      simp [set, same, List.lookup_cons, other, ih]

theorem lookup_set_ne [BEq κ] [LawfulBEq κ] {k k' : κ} (other : k' ≠ k) (v : α)
    (m : List (κ × α)) : (set k v m).lookup k' = m.lookup k' := by
  have miss : (k' == k) = false := beq_eq_false_iff_ne.mpr other
  induction m with
  | nil => simp [set, List.lookup_cons, miss]
  | cons e m ih =>
    obtain ⟨k'', v'⟩ := e
    by_cases same : k'' = k
    · simp [set, same, List.lookup_cons, miss]
    · simp [set, same, List.lookup_cons, ih]

omit [DecidableEq κ] in
theorem mem_of_lookup [BEq κ] [LawfulBEq κ] {m : List (κ × α)} {k : κ} {v : α} (found : m.lookup k = some v) :
    (k, v) ∈ m := by
  induction m with
  | nil => cases found
  | cons e m ih =>
    obtain ⟨k', v'⟩ := e
    rw [List.lookup_cons] at found
    cases same : k == k' with
    | true =>
      simp only [same] at found
      cases found
      rw [eq_of_beq same]
      exact List.mem_cons_self
    | false =>
      simp only [same] at found
      exact List.mem_cons_of_mem _ (ih found)

theorem mem_set {k : κ} {v : α} {m : List (κ × α)} {e : κ × α} (member : e ∈ set k v m) :
    e = (k, v) ∨ e ∈ m := by
  induction m with
  | nil => exact .inl (by simpa [set] using member)
  | cons e' m ih =>
    obtain ⟨k', v'⟩ := e'
    unfold set at member
    split at member
    · rcases List.mem_cons.mp member with rfl | member
      · exact .inl rfl
      · exact .inr (List.mem_cons_of_mem _ member)
    · rcases List.mem_cons.mp member with rfl | member
      · exact .inr List.mem_cons_self
      · rcases ih member with rfl | member
        · exact .inl rfl
        · exact .inr (List.mem_cons_of_mem _ member)

theorem set_set (k : κ) (v w : α) (m : List (κ × α)) : set k w (set k v m) = set k w m := by
  induction m with
  | nil => simp [set]
  | cons e m ih =>
    obtain ⟨k', v'⟩ := e
    by_cases same : k' = k <;> simp [set, same, ih]

theorem mem_set_of_mem [BEq κ] [LawfulBEq κ] {k : κ} (v : α) {m : List (κ × α)} {e : κ × α}
    (member : e ∈ m) : e ∈ set k v m ∨ e.1 = k ∧ m.lookup k = some e.2 := by
  induction m with
  | nil => cases member
  | cons e' m ih =>
    obtain ⟨k', v'⟩ := e'
    by_cases same : k' = k
    · subst same
      rcases List.mem_cons.mp member with rfl | member
      · exact .inr ⟨rfl, by simp⟩
      · exact .inl (by simp [set, member])
    · have other : (k == k') = false := beq_eq_false_iff_ne.mpr (Ne.symm same)
      rw [set, if_neg same, List.lookup_cons, other]
      rcases List.mem_cons.mp member with rfl | member
      · exact .inl List.mem_cons_self
      · exact (ih member).imp (List.mem_cons_of_mem _) id

theorem mem_ofList {key : α → κ} {values : List α} {e : κ × α} (member : e ∈ ofList key values) :
    e.1 = key e.2 ∧ e.2 ∈ values := by
  induction values using List.reverseRecOn with
  | nil => cases member
  | append_singleton values v ih =>
    rw [ofList_concat] at member
    rcases mem_set member with rfl | member
    · exact ⟨rfl, by simp⟩
    · exact ⟨(ih member).1, List.mem_append_left _ (ih member).2⟩

theorem of_lookup_ofList [BEq κ] [LawfulBEq κ] {key : α → κ} {values : List α} {k : κ} {v : α}
    (found : (ofList key values).lookup k = some v) : key v = k ∧ v ∈ values :=
  ⟨(mem_ofList (mem_of_lookup found)).1.symm, (mem_ofList (mem_of_lookup found)).2⟩

theorem lookup_ofList_of_unique [BEq κ] [LawfulBEq κ] {key : α → κ} {values : List α} {v : α}
    (member : v ∈ values) (unique : ∀ w ∈ values, key w = key v → w = v) :
    (ofList key values).lookup (key v) = some v := by
  induction values using List.reverseRecOn with
  | nil => cases member
  | append_singleton values w ih =>
    rw [ofList_concat]
    by_cases same : key w = key v
    · rw [unique w (by simp) same, lookup_set_self]
    · have earlier : v ∈ values := by
        rcases List.mem_append.mp member with earlier | last
        · exact earlier
        · exact absurd (congrArg key (List.mem_singleton.mp last).symm) same
      rw [lookup_set_ne (Ne.symm same)]
      exact ih earlier (fun u listed => unique u (List.mem_append_left _ listed))

theorem set_of_fresh {k : κ} {m : List (κ × α)} (fresh : k ∉ m.map Prod.fst) (v : α) :
    set k v m = m ++ [(k, v)] := by
  induction m with
  | nil => rfl
  | cons e m ih =>
    obtain ⟨k', v'⟩ := e
    rw [List.map_cons, List.mem_cons, not_or] at fresh
    rw [set, if_neg (Ne.symm fresh.1), ih fresh.2]
    rfl

theorem keys_set (k : κ) (v : α) (m : List (κ × α)) : (set k v m).map Prod.fst =
    if k ∈ m.map Prod.fst then m.map Prod.fst else m.map Prod.fst ++ [k] := by
  induction m with
  | nil => rfl
  | cons e m ih =>
    obtain ⟨k', v'⟩ := e
    by_cases same : k' = k
    · simp [set, same]
    · have other : ¬ k = k' := Ne.symm same
      rw [set, if_neg same, List.map_cons, ih]
      by_cases member : k ∈ m.map Prod.fst <;> simp [member, other]

theorem nodup_set {m : List (κ × α)} (distinct : (m.map Prod.fst).Nodup) (k : κ) (v : α) :
    ((set k v m).map Prod.fst).Nodup := by
  rw [keys_set]
  split
  · exact distinct
  · rename_i fresh
    refine List.nodup_append.mpr ⟨distinct, List.pairwise_singleton _ _, ?_⟩
    rintro k member _ last rfl
    rw [List.mem_singleton] at last
    exact fresh (last ▸ member)

theorem nodup_ofList (key : α → κ) (values : List α) :
    ((ofList key values).map Prod.fst).Nodup := by
  induction values using List.reverseRecOn with
  | nil => exact List.nodup_nil
  | append_singleton values v ih =>
    rw [ofList_concat]
    exact nodup_set ih _ _

theorem mem_values_iff [BEq κ] [LawfulBEq κ] {key : α → κ} (values : List α) (v : α) :
    v ∈ (ofList key values).map Prod.snd ↔ (ofList key values).lookup (key v) = some v := by
  constructor
  · intro member
    obtain ⟨e, listed, rfl⟩ := List.mem_map.mp member
    have named := (mem_ofList listed).1
    exact SortedMap.lookup_of_mem (nodup_ofList key values) (named ▸ listed)
  · intro found
    exact List.mem_map_of_mem (f := Prod.snd) (mem_of_lookup found)

theorem ofList_of_nodup {key : α → κ} {values : List α} (distinct : (values.map key).Nodup) :
    ofList key values = values.map (fun v => (key v, v)) := by
  induction values using List.reverseRecOn with
  | nil => rfl
  | append_singleton values v ih =>
    rw [List.map_append, List.nodup_append] at distinct
    have whole : ofList key values = values.map (fun v => (key v, v)) := ih distinct.1
    have fresh : key v ∉ (ofList key values).map Prod.fst := by
      intro member
      rw [whole, List.map_map] at member
      exact distinct.2.2 _ member _ (by simp) rfl
    rw [ofList_concat, set_of_fresh fresh, whole, List.map_append]
    rfl

theorem ofList_values (key : α → κ) (values : List α) :
    ofList key ((ofList key values).map Prod.snd) = ofList key values := by
  have keys : ∀ e ∈ ofList key values, (key e.2, e.2) = e :=
    fun e member => Prod.ext (mem_ofList member).1.symm rfl
  have distinct : (((ofList key values).map Prod.snd).map key).Nodup := by
    have same : ((ofList key values).map Prod.snd).map key = (ofList key values).map Prod.fst := by
      rw [List.map_map]
      exact List.map_congr_left (fun e member => (mem_ofList member).1.symm)
    rw [same]
    exact nodup_ofList key values
  rw [ofList_of_nodup distinct, List.map_map]
  exact (List.map_congr_left keys).trans (List.map_id _)

theorem map_set (f : α → β) (k : κ) (v : α) (m : List (κ × α)) :
    (set k v m).map (Prod.map id f) = set k (f v) (m.map (Prod.map id f)) := by
  induction m with
  | nil => rfl
  | cons e m ih =>
    obtain ⟨k', v'⟩ := e
    by_cases same : k' = k <;> simp [set, same, ih]

theorem ofList_map {key : α → κ} {key' : β → κ} (f : α → β) (same : ∀ v, key' (f v) = key v)
    (values : List α) :
    ofList key' (values.map f) = (ofList key values).map (Prod.map id f) := by
  induction values using List.reverseRecOn with
  | nil => rfl
  | append_singleton values v ih =>
    simp only [ofList, List.map_append, List.map_cons, List.map_nil, List.foldl_append,
      List.foldl_cons, List.foldl_nil] at ih ⊢
    rw [map_set, ← ih, same]

theorem foldl_set_map (key : α → κ) (f : α → β) (values : List α) :
    values.foldl (fun m v => set (key v) (f v) m) [] = (ofList key values).map (Prod.map id f) := by
  induction values using List.reverseRecOn with
  | nil => rfl
  | append_singleton values v ih =>
    simp only [ofList, List.foldl_append, List.foldl_cons, List.foldl_nil] at ih ⊢
    rw [map_set, ih]

omit [DecidableEq κ] in
theorem lookup_map [BEq κ] (f : α → β) (k : κ) (m : List (κ × α)) :
    (m.map (Prod.map id f)).lookup k = (m.lookup k).map f := by
  induction m with
  | nil => rfl
  | cons e m ih =>
    obtain ⟨k', v'⟩ := e
    simp only [List.map_cons, Prod.map, id, List.lookup_cons]
    split
    · rfl
    · exact ih

section Rename

variable {ι : Type*} [DecidableEq ι] {rename : κ → ι} (injective : rename.Injective)

include injective

theorem set_rename (k : κ) (v : α) (m : List (κ × α)) :
    set (rename k) v (m.map (Prod.map rename id)) = (set k v m).map (Prod.map rename id) := by
  induction m with
  | nil => rfl
  | cons e m ih =>
    obtain ⟨k', v'⟩ := e
    by_cases same : k' = k
    · simp [set, same]
    · simp [set, same, injective.ne same, ih]

theorem ofList_rename (key : α → κ) (values : List α) :
    ofList (fun v => rename (key v)) values = (ofList key values).map (Prod.map rename id) := by
  induction values using List.reverseRecOn with
  | nil => rfl
  | append_singleton values v ih => rw [ofList_concat, ofList_concat, ih, set_rename injective]

theorem lookup_ofList_rename [BEq κ] [LawfulBEq κ] [BEq ι] [LawfulBEq ι] (key : α → κ)
    (values : List α) (k : κ) :
    (ofList (fun v => rename (key v)) values).lookup (rename k) = (ofList key values).lookup k := by
  rw [ofList_rename injective]
  induction ofList key values with
  | nil => rfl
  | cons e m ih =>
    obtain ⟨k', v⟩ := e
    rw [List.map_cons, Prod.map_apply, List.lookup_cons, List.lookup_cons, ih]
    by_cases same : k = k'
    · simp [same]
    · simp [beq_eq_false_iff_ne.mpr same, beq_eq_false_iff_ne.mpr (injective.ne same)]

theorem lookup_ofList_image [BEq κ] [LawfulBEq κ] [BEq ι] [LawfulBEq ι] {key : α → κ} {key' : β → ι}
    {f : α → β} (named : ∀ v, key' (f v) = rename (key v)) (values : List α) (k : κ) :
    (ofList key' (values.map f)).lookup (rename k) = ((ofList key values).lookup k).map f := by
  rw [ofList_map f named, lookup_map, lookup_ofList_rename injective]

theorem values_ofList_image {key : α → κ} {key' : β → ι} {f : α → β}
    (named : ∀ v, key' (f v) = rename (key v)) (values : List α) :
    (ofList key' (values.map f)).map Prod.snd = ((ofList key values).map Prod.snd).map f := by
  rw [ofList_map f named, ofList_rename injective]
  simp [Function.comp_def]

end Rename

end InsertionMap
