import Mathlib.Order.Defs.LinearOrder
import Mathlib.Data.List.Induction
import Mathlib.Data.List.Nodup
import Mathlib.Data.List.Sort

/-! Association lists kept in strictly increasing key order, as an ordered map
iterates. Two such lists with the same lookups are the same list. -/
namespace SortedMap

universe u v
variable {κ : Type u} {ν : Type v} [LinearOrder κ]

/-- Every key is below the keys after it. -/
def Sorted (m : List (κ × ν)) : Prop := m.Pairwise (fun a b => a.1 < b.1)

instance (m : List (κ × ν)) : Decidable (Sorted m) :=
  inferInstanceAs (Decidable (List.Pairwise _ m))

/-- Insert, replacing the value of a key that is already there. -/
def insert (k : κ) (v : ν) : List (κ × ν) → List (κ × ν)
  | [] => [(k, v)]
  | (k', v') :: m =>
    if k < k' then (k, v) :: (k', v') :: m
    else if k = k' then (k, v) :: m
    else (k', v') :: insert k v m

/-- Insert the members one after the other, so that a later one wins. -/
def ofList (members : List (κ × ν)) : List (κ × ν) :=
  members.foldl (fun m kv => insert kv.1 kv.2 m) []

omit [LinearOrder κ] in
theorem lookup_cons_ne [BEq κ] [LawfulBEq κ] {k k' : κ} (v : ν) (m : List (κ × ν)) (distinct : k ≠ k') :
    ((k', v) :: m).lookup k = m.lookup k := by
  rw [List.lookup_cons, beq_eq_false_iff_ne.mpr distinct]

theorem mem_insert {k : κ} {v : ν} {m : List (κ × ν)} {x : κ × ν} (member : x ∈ insert k v m) :
    x = (k, v) ∨ x ∈ m := by
  induction m with
  | nil => exact .inl (by simpa [insert] using member)
  | cons e m ih =>
    obtain ⟨k', v'⟩ := e
    simp only [insert] at member
    split at member
    · exact (List.mem_cons.mp member).imp_right id
    · split at member
      · exact (List.mem_cons.mp member).imp_right (List.mem_cons_of_mem _)
      · rcases List.mem_cons.mp member with rfl | member
        · exact .inr List.mem_cons_self
        · exact (ih member).imp_right (List.mem_cons_of_mem _)

theorem insert_keys (k : κ) (v : ν) (m : List (κ × ν)) :
    ∀ x ∈ insert k v m, x.1 = k ∨ x ∈ m :=
  fun _ member => (mem_insert member).imp_left (congrArg Prod.fst)

theorem mem_ofList {members : List (κ × ν)} {x : κ × ν} (member : x ∈ ofList members) :
    x ∈ members := by
  induction members using List.reverseRecOn with
  | nil => cases member
  | append_singleton members e ih =>
    rw [ofList, List.foldl_append] at member
    rcases mem_insert member with rfl | member
    · simp
    · exact List.mem_append_left _ (ih member)

theorem insert_sorted {k : κ} {v : ν} {m : List (κ × ν)} (h : Sorted m) :
    Sorted (insert k v m) := by
  induction m with
  | nil => simp [insert, Sorted]
  | cons e m ih =>
    obtain ⟨k', v'⟩ := e
    have head := (List.pairwise_cons.mp h).1
    have tail := (List.pairwise_cons.mp h).2
    simp only [insert]
    split
    · rename_i below
      refine List.pairwise_cons.mpr ⟨fun x hx => ?_, h⟩
      rcases List.mem_cons.mp hx with rfl | hx
      · exact below
      · exact lt_trans below (head x hx)
    · split
      · rename_i same
        exact List.pairwise_cons.mpr ⟨fun x hx => same ▸ head x hx, tail⟩
      · rename_i notBelow notSame
        have above : k' < k := lt_of_le_of_ne (not_lt.mp notBelow) (Ne.symm notSame)
        refine List.pairwise_cons.mpr ⟨fun x hx => ?_, ih tail⟩
        rcases insert_keys k v m x hx with same | hx
        · exact same ▸ above
        · exact head x hx

@[simp] theorem lookup_insert (k : κ) (v : ν) (m : List (κ × ν)) :
    (insert k v m).lookup k = some v := by
  induction m with
  | nil => simp [insert]
  | cons e m ih =>
    obtain ⟨k', v'⟩ := e
    simp only [insert]
    split
    · simp
    · split
      · simp
      · rename_i notSame
        rw [lookup_cons_ne _ _ notSame, ih]

theorem lookup_insert_ne {k k' : κ} (v : ν) (m : List (κ × ν)) (distinct : k' ≠ k) :
    (insert k v m).lookup k' = m.lookup k' := by
  induction m with
  | nil => exact lookup_cons_ne _ _ distinct
  | cons e m ih =>
    obtain ⟨k₀, v₀⟩ := e
    simp only [insert]
    split
    · exact lookup_cons_ne _ _ distinct
    · split
      · rename_i same
        subst same
        rw [lookup_cons_ne _ _ distinct, lookup_cons_ne _ _ distinct]
      · simp only [List.lookup_cons, ih]

theorem foldl_sorted (members : List (κ × ν)) {m : List (κ × ν)} (h : Sorted m) :
    Sorted (members.foldl (fun m kv => insert kv.1 kv.2 m) m) := by
  induction members generalizing m with
  | nil => exact h
  | cons e members ih => exact ih (insert_sorted h)

theorem ofList_sorted (members : List (κ × ν)) : Sorted (ofList members) :=
  foldl_sorted members List.Pairwise.nil

theorem lookup_foldl (members : List (κ × ν)) (distinct : (members.map Prod.fst).Nodup)
    (m : List (κ × ν)) (k : κ) :
    (members.foldl (fun m kv => insert kv.1 kv.2 m) m).lookup k =
      ((members.lookup k).or (m.lookup k)) := by
  induction members generalizing m with
  | nil => simp
  | cons e members ih =>
    obtain ⟨k', v'⟩ := e
    have fresh := (List.nodup_cons.mp distinct).1
    rw [List.foldl_cons, ih (List.nodup_cons.mp distinct).2]
    by_cases same : k = k'
    · subst same
      have none_ : members.lookup k = none := by
        rw [List.lookup_eq_none_iff]
        intro x hx
        have : x.1 ≠ k := fun h => fresh (List.mem_map.mpr ⟨x, hx, h⟩)
        simpa using this.symm
      simp [none_]
    · rw [lookup_insert_ne _ _ same, lookup_cons_ne _ _ same]

theorem lookup_ofList (members : List (κ × ν)) (distinct : (members.map Prod.fst).Nodup) (k : κ) :
    (ofList members).lookup k = members.lookup k := by
  have h := lookup_foldl members distinct [] k
  simpa [ofList] using h

theorem Sorted.nodup_keys {m : List (κ × ν)} (h : Sorted m) : (m.map Prod.fst).Nodup :=
  (List.pairwise_map.mpr h).imp (fun below => ne_of_lt below)

omit [LinearOrder κ] in
theorem lookup_of_mem [BEq κ] [LawfulBEq κ] {m : List (κ × ν)} (distinct : (m.map Prod.fst).Nodup) {k : κ}
    {v : ν} (member : (k, v) ∈ m) : m.lookup k = some v := by
  induction m with
  | nil => simp at member
  | cons e m ih =>
    obtain ⟨k', v'⟩ := e
    have fresh := (List.nodup_cons.mp distinct).1
    rcases List.mem_cons.mp member with same | member
    · cases same; simp
    · have other : k ≠ k' := fun h => fresh (List.mem_map.mpr ⟨(k, v), member, h⟩)
      rw [lookup_cons_ne _ _ other]
      exact ih (List.nodup_cons.mp distinct).2 member

omit [LinearOrder κ] in
theorem mem_of_lookup [BEq κ] [LawfulBEq κ] {m : List (κ × ν)} {k : κ} {v : ν} (h : m.lookup k = some v) :
    (k, v) ∈ m := by
  induction m with
  | nil => simp at h
  | cons e m ih =>
    obtain ⟨k', v'⟩ := e
    by_cases same : k = k'
    · subst same
      simp only [List.lookup_cons, beq_self_eq_true] at h
      cases h
      exact List.mem_cons_self
    · simp only [List.lookup_cons, beq_eq_false_iff_ne.mpr same] at h
      exact List.mem_cons_of_mem _ (ih h)

theorem ext [BEq κ] [LawfulBEq κ] {m m' : List (κ × ν)} (h : Sorted m) (h' : Sorted m')
    (same : ∀ k, m.lookup k = m'.lookup k) : m = m' := by
  have perm : m.Perm m' := by
    rw [List.perm_ext_iff_of_nodup (List.Nodup.of_map Prod.fst h.nodup_keys) (List.Nodup.of_map Prod.fst h'.nodup_keys)]
    rintro ⟨k, v⟩
    constructor
    · exact fun hm => mem_of_lookup ((same k).symm.trans (lookup_of_mem h.nodup_keys hm))
    · exact fun hm => mem_of_lookup ((same k).trans (lookup_of_mem h'.nodup_keys hm))
  exact perm.eq_of_pairwise (fun a b _ _ hab hba => absurd (lt_trans hab hba) (lt_irrefl _)) h h'

theorem insert_congr {m m' : List (κ × ν)} (h : Sorted m) (h' : Sorted m') {k : κ} (v : ν)
    (same : ∀ k', k' ≠ k → m.lookup k' = m'.lookup k') : insert k v m = insert k v m' := by
  refine ext (insert_sorted h) (insert_sorted h') (fun k' => ?_)
  by_cases hk : k' = k
  · rw [hk, lookup_insert, lookup_insert]
  · rw [lookup_insert_ne v m hk, lookup_insert_ne v m' hk, same k' hk]

omit [LinearOrder κ] in
theorem lookup_perm [BEq κ] [LawfulBEq κ] {m m' : List (κ × ν)} (perm : m.Perm m') (distinct : (m.map Prod.fst).Nodup) (k : κ) :
    m.lookup k = m'.lookup k := by
  have distinct' : (m'.map Prod.fst).Nodup := (perm.map Prod.fst).nodup_iff.mp distinct
  cases found : m'.lookup k with
  | none =>
    rw [List.lookup_eq_none_iff] at found ⊢
    exact fun e member => found e (perm.mem_iff.mp member)
  | some v => exact lookup_of_mem distinct (perm.mem_iff.mpr (mem_of_lookup found))

theorem sorted_insertionSort {m : List (κ × ν)} (distinct : (m.map Prod.fst).Nodup) :
    Sorted (m.insertionSort (fun e e' => e.1 ≤ e'.1)) := by
  have : Std.Total (fun e e' : κ × ν => e.1 ≤ e'.1) := ⟨fun e e' => le_total e.1 e'.1⟩
  have : IsTrans (κ × ν) (fun e e' => e.1 ≤ e'.1) := ⟨fun _ _ _ => le_trans⟩
  have ordered := List.pairwise_insertionSort (fun e e' : κ × ν => e.1 ≤ e'.1) m
  have apart := List.pairwise_map.mp (((List.perm_insertionSort (fun e e' : κ × ν => e.1 ≤ e'.1) m).map
    Prod.fst).nodup_iff.mpr distinct)
  exact ordered.imp₂ (fun _ _ below different => lt_of_le_of_ne below different) apart

theorem lookup_filter [BEq κ] [LawfulBEq κ] (p : κ → Bool) (m : List (κ × ν)) (k : κ) :
    (m.filter (fun e => p e.1)).lookup k = if p k then m.lookup k else none := by
  induction m with
  | nil => simp
  | cons e m ih =>
    obtain ⟨k', v⟩ := e
    by_cases same : k = k'
    · subst same
      rw [List.filter_cons]
      split_ifs at ih ⊢ with kept
      · simp
      · exact ih
    · rw [List.filter_cons, lookup_cons_ne v m same]
      split_ifs at ih ⊢ with kept
      · rw [lookup_cons_ne v _ same]
        exact ih
      · rw [lookup_cons_ne v _ same]
        exact ih
      · exact ih
      · exact ih

end SortedMap
