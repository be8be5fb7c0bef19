import Mathlib.Data.List.Induction
import Mathlib.Data.List.Nodup
import VaidSuite.Lib.InsertionMap

/-! Maps whose values carry their own key. A later value replaces an earlier one
of the same key. -/

universe u v

structure Keyed {α : Type u} {κ : Type v} (key : α → κ) where
  items : List α
  distinct : (items.map key).Nodup

namespace Keyed

variable {α : Type u} {κ : Type v} [DecidableEq κ] {key : α → κ}

def empty : Keyed key := ⟨[], List.nodup_nil⟩

def insert (m : Keyed key) (a : α) : Keyed key where
  items := a :: m.items.filter (fun b => key b ≠ key a)
  distinct := by
    refine List.nodup_cons.mpr ⟨?_, m.distinct.sublist (List.filter_sublist.map key)⟩
    intro member
    obtain ⟨b, hb, same⟩ := List.mem_map.mp member
    simpa [same] using (List.mem_filter.mp hb).2

def ofList (values : List α) : Keyed key := values.foldl insert empty

def get (m : Keyed key) (k : κ) : Option α := m.items.find? (fun a => key a = k)

theorem get_eq_some_iff (m : Keyed key) (k : κ) (a : α) :
    m.get k = some a ↔ a ∈ m.items ∧ key a = k := by
  constructor
  · intro h
    exact ⟨List.mem_of_find?_eq_some h, by simpa using List.find?_some h⟩
  · rintro ⟨member, rfl⟩
    cases h : m.get (key a) with
    | none => simpa using List.find?_eq_none.mp h a member
    | some b =>
      have hb : b ∈ m.items := List.mem_of_find?_eq_some h
      have same : key b = key a := by simpa using List.find?_some h
      exact congrArg some (List.inj_on_of_nodup_map m.distinct hb member same)

theorem key_of_get {m : Keyed key} {k : κ} {a : α} (h : m.get k = some a) : key a = k :=
  ((m.get_eq_some_iff k a).mp h).2

theorem mem_of_get {m : Keyed key} {k : κ} {a : α} (h : m.get k = some a) : a ∈ m.items :=
  ((m.get_eq_some_iff k a).mp h).1

theorem mem_insert_iff (m : Keyed key) (a b : α) :
    b ∈ (m.insert a).items ↔ b = a ∨ b ∈ m.items ∧ key b ≠ key a := by
  simp [insert]

theorem get_insert (m : Keyed key) (a : α) : (m.insert a).get (key a) = some a :=
  (get_eq_some_iff _ _ _).mpr ⟨List.mem_cons_self, rfl⟩

theorem get_insert_ne (m : Keyed key) (a : α) {k : κ} (distinct : k ≠ key a) :
    (m.insert a).get k = m.get k := by
  refine Option.ext (fun b => ?_)
  rw [get_eq_some_iff, get_eq_some_iff, mem_insert_iff]
  constructor
  · rintro ⟨rfl | ⟨member, _⟩, same⟩
    · exact absurd same.symm distinct
    · exact ⟨member, same⟩
  · rintro ⟨member, same⟩
    exact ⟨.inr ⟨member, same ▸ distinct⟩, same⟩

theorem mem_items_iff (m : Keyed key) (a : α) : a ∈ m.items ↔ m.get (key a) = some a := by
  rw [get_eq_some_iff]
  exact (and_iff_left rfl).symm

def IsLast (key : α → κ) (values : List α) (a : α) : Prop :=
  ∃ before after, values = before ++ a :: after ∧ ∀ b ∈ after, key b ≠ key a

omit [DecidableEq κ] in
theorem IsLast.mem {values : List α} {a : α} (h : IsLast key values a) : a ∈ values := by
  obtain ⟨before, after, rfl, -⟩ := h
  exact List.mem_append_right _ List.mem_cons_self

omit [DecidableEq κ] in
theorem isLast_concat_iff (values : List α) (a b : α) :
    IsLast key (values ++ [b]) a ↔ a = b ∨ IsLast key values a ∧ key b ≠ key a := by
  constructor
  · rintro ⟨before, after, split, last⟩
    rcases List.eq_nil_or_concat after with rfl | ⟨after, c, rfl⟩
    · exact .inl (List.head_eq_of_cons_eq (List.append_inj' split rfl).2).symm
    · rw [List.concat_eq_append, ← List.cons_append, ← List.append_assoc] at split
      obtain ⟨rfl, last_eq⟩ := List.append_inj' split rfl
      cases List.head_eq_of_cons_eq last_eq
      rw [List.concat_eq_append] at last
      exact .inr ⟨⟨before, after, rfl, fun d hd => last d (List.mem_append_left _ hd)⟩,
        last _ (List.mem_append_right _ List.mem_cons_self)⟩
  · rintro (rfl | ⟨⟨before, after, rfl, last⟩, other⟩)
    · exact ⟨values, [], rfl, by simp⟩
    · refine ⟨before, after ++ [b], by simp, fun d hd => ?_⟩
      rcases List.mem_append.mp hd with hd | hd
      · exact last d hd
      · exact List.mem_singleton.mp hd ▸ other

theorem get_ofList_eq_some_iff (values : List α) (k : κ) (a : α) :
    (ofList values : Keyed key).get k = some a ↔ IsLast key values a ∧ key a = k := by
  induction values using List.reverseRecOn with
  | nil => simp [ofList, empty, get, IsLast]
  | append_singleton values b ih =>
    have collected : (ofList (values ++ [b]) : Keyed key) = (ofList values).insert b :=
      List.foldl_append
    rw [collected, isLast_concat_iff]
    by_cases here : k = key b
    · subst here
      rw [get_insert]
      constructor
      · rintro ⟨⟩
        exact ⟨.inl rfl, rfl⟩
      · rintro ⟨rfl | ⟨-, other⟩, same⟩
        · rfl
        · exact absurd same.symm other
    · rw [get_insert_ne _ _ here, ih]
      constructor
      · rintro ⟨last, rfl⟩
        exact ⟨.inr ⟨last, Ne.symm here⟩, rfl⟩
      · rintro ⟨rfl | ⟨last, -⟩, rfl⟩
        · exact absurd rfl here
        · exact ⟨last, rfl⟩

omit [DecidableEq κ] in
theorem isLast_of_mem {values : List α} (single : ∀ a ∈ values, ∀ b ∈ values, key a = key b → a = b)
    {a : α} (member : a ∈ values) : IsLast key values a := by
  induction values using List.reverseRecOn with
  | nil => cases member
  | append_singleton values b ih =>
    rw [isLast_concat_iff]
    have last : b ∈ values ++ [b] := List.mem_append_right _ List.mem_cons_self
    by_cases same : key b = key a
    · exact .inl (single a member b last same.symm)
    · rcases List.mem_append.mp member with earlier | here
      · exact .inr ⟨ih (fun c hc d hd => single c (List.mem_append_left _ hc) d
          (List.mem_append_left _ hd)) earlier, same⟩
      · exact absurd (congrArg key (List.mem_singleton.mp here)).symm same

section Image

variable {β : Type*} {key' : β → κ} {f : α → β} (named : ∀ v, key' (f v) = key v)

include named

theorem get_ofList_image [BEq κ] [LawfulBEq κ] (values : List α) (k : κ) :
    (Keyed.ofList (values.map f) : Keyed key').get k =
      ((InsertionMap.ofList key values).lookup k).map f := by
  induction values using List.reverseRecOn with
  | nil => rfl
  | append_singleton values v ih =>
    have collected : (Keyed.ofList ((values ++ [v]).map f) : Keyed key') =
        (Keyed.ofList (values.map f)).insert (f v) := by
      rw [List.map_append]
      exact List.foldl_append
    rw [collected, InsertionMap.ofList_concat]
    by_cases same : k = key v
    · subst same
      rw [← named, Keyed.get_insert, named, InsertionMap.lookup_set_self]
      rfl
    · rw [Keyed.get_insert_ne _ _ (by rwa [named]), InsertionMap.lookup_set_ne same, ih]

theorem mem_items_image [BEq κ] [LawfulBEq κ] (values : List α) (b : β) :
    b ∈ (Keyed.ofList (values.map f) : Keyed key').items ↔
      ∃ v ∈ (InsertionMap.ofList key values).map Prod.snd, f v = b := by
  rw [Keyed.mem_items_iff, get_ofList_image named, Option.map_eq_some_iff]
  constructor
  · rintro ⟨v, found, rfl⟩
    rw [named] at found
    exact ⟨v, (InsertionMap.mem_values_iff values v).mpr found, rfl⟩
  · rintro ⟨v, member, rfl⟩
    rw [named]
    exact ⟨v, (InsertionMap.mem_values_iff values v).mp member, rfl⟩

end Image

end Keyed
