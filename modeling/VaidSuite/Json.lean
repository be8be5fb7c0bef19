import Mathlib.Data.String.Basic
import VaidSuite.Lib.SortedMap

/-! JSON trees over an arbitrary string type. -/
namespace VaidSuite

abbrev Bytes := List UInt8

/-- A number as a JSON reader hands it over: an integer, or a double by its bits. -/
inductive JsonNumber where
  | int (n : Int)
  | float (bits : BitVec 64)
  deriving DecidableEq, Repr

inductive Json (σ : Type) where
  | null
  | bool (b : Bool)
  | num (n : JsonNumber)
  | str (s : σ)
  | arr (items : List (Json σ))
  | obj (members : List (σ × Json σ))

namespace Json

variable {σ : Type}

def ofNat (n : Nat) : Json σ := .num (.int n)

def ofBytes (b : Bytes) : Json σ := .arr (b.map (fun x => ofNat x.toNat))

/-- An object built the way a `serde_json` map is: ordered, a later member wins. -/
def object (members : List (String × Json String)) : Json String :=
  .obj (SortedMap.ofList members)

def get [DecidableEq σ] (k : σ) : Json σ → Option (Json σ)
  | .obj members => members.lookup k
  | _ => none

/-- Set a member of an object. -/
def insert (j : Json String) (k : String) (v : Json String) : Json String :=
  match j with
  | .obj members => .obj (SortedMap.insert k v members)
  | j => j

def asStr : Json σ → Option σ
  | .str s => some s
  | _ => none

mutual

/-- Every object lists its members in strictly increasing key order. -/
def ordered : Json String → Bool
  | .arr items => orderedItems items
  | .obj members => decide (SortedMap.Sorted members) && orderedMembers members
  | .null | .bool _ | .num _ | .str _ => true

def orderedItems : List (Json String) → Bool
  | [] => true
  | j :: items => j.ordered && orderedItems items

def orderedMembers : List (String × Json String) → Bool
  | [] => true
  | (_, j) :: members => j.ordered && orderedMembers members

end

theorem ordered_of_item {items : List (Json String)} (h : orderedItems items = true)
    {j : Json String} (member : j ∈ items) : j.ordered = true := by
  induction items with
  | nil => simp at member
  | cons i items ih =>
    simp only [orderedItems, Bool.and_eq_true] at h
    rcases List.mem_cons.mp member with rfl | member
    · exact h.1
    · exact ih h.2 member

theorem ordered_of_member {members : List (String × Json String)}
    (h : orderedMembers members = true) {k : String} {j : Json String}
    (member : (k, j) ∈ members) : j.ordered = true := by
  induction members with
  | nil => simp at member
  | cons e members ih =>
    obtain ⟨k', j'⟩ := e
    simp only [orderedMembers, Bool.and_eq_true] at h
    rcases List.mem_cons.mp member with same | member
    · cases same; exact h.1
    · exact ih h.2 member

theorem orderedMembers_filter (keep : String × Json String → Bool)
    {members : List (String × Json String)} (h : orderedMembers members = true) :
    orderedMembers (members.filter keep) = true := by
  induction members with
  | nil => rfl
  | cons m members ih =>
    obtain ⟨k, j⟩ := m
    simp only [orderedMembers, Bool.and_eq_true] at h
    rw [List.filter_cons]
    split
    · simp only [orderedMembers, Bool.and_eq_true]
      exact ⟨h.1, ih h.2⟩
    · exact ih h.2

theorem orderedItems_of_forall {items : List (Json String)} (h : ∀ j ∈ items, j.ordered = true) :
    orderedItems items = true := by
  induction items with
  | nil => rfl
  | cons j items ih =>
    rw [orderedItems, h j List.mem_cons_self, ih (fun i hi => h i (List.mem_cons_of_mem _ hi))]
    rfl

theorem orderedMembers_of_forall {members : List (String × Json String)}
    (h : ∀ m ∈ members, m.2.ordered = true) : orderedMembers members = true := by
  induction members with
  | nil => rfl
  | cons m members ih =>
    obtain ⟨k, j⟩ := m
    rw [orderedMembers, h _ List.mem_cons_self, ih (fun i hi => h i (List.mem_cons_of_mem _ hi))]
    rfl

theorem ordered_of_get {j v : Json String} (h : j.ordered = true) {k : String}
    (found : j.get k = some v) : v.ordered = true := by
  cases j with
  | obj members =>
    simp only [ordered, Bool.and_eq_true] at h
    exact ordered_of_member h.2 (SortedMap.mem_of_lookup found)
  | _ => cases found

end Json

/-- A `serde_json::Value`: objects are ordered maps, so no member is named twice
and two values are equal when their members are. -/
structure JsonValue where
  val : Json String
  property : val.ordered = true

namespace JsonValue

def array (items : List JsonValue) : JsonValue where
  val := .arr (items.map val)
  property := by
    refine Json.orderedItems_of_forall (fun j member => ?_)
    obtain ⟨item, _, rfl⟩ := List.mem_map.mp member
    exact item.property

/-- An object of the members as they come: a later one wins. -/
def object (members : List (String × JsonValue)) : JsonValue where
  val := .object (members.map (Prod.map id val))
  property := by
    rw [Json.object, Json.ordered, decide_eq_true (SortedMap.ofList_sorted _), Bool.true_and]
    refine Json.orderedMembers_of_forall (fun m member => ?_)
    obtain ⟨entry, _, rfl⟩ := List.mem_map.mp (SortedMap.mem_ofList member)
    exact entry.2.property

def items? : JsonValue → Option (List JsonValue)
  | ⟨.arr items, h⟩ => some (items.pmap mk (fun _ => Json.ordered_of_item h))
  | _ => none

def members? : JsonValue → Option (List (String × Json String))
  | ⟨.obj members, _⟩ => some members
  | _ => none

def member? (j : JsonValue) (k : String) : Option JsonValue :=
  match h : j.val.get k with
  | none => none
  | some v => some ⟨v, Json.ordered_of_get j.property h⟩

theorem items?_eq_some {j : JsonValue} {items : List JsonValue} (h : j.items? = some items) :
    j.val = .arr (items.map val) := by
  obtain ⟨j, ordered⟩ := j
  cases j with
  | arr js =>
    cases h
    have values : (js.pmap mk (fun _ => Json.ordered_of_item ordered)).map val = js :=
      List.map_pmap .. |>.trans ((List.pmap_eq_map ..).trans (List.map_id js))
    rw [values]
  | _ => cases h

theorem members?_eq_some {j : JsonValue} {members : List (String × Json String)}
    (h : j.members? = some members) : j.val = .obj members := by
  obtain ⟨j, ordered⟩ := j
  cases j with
  | obj ms => cases h; rfl
  | _ => cases h

theorem member?_eq_some {j : JsonValue} {k : String} {v : JsonValue} (h : j.member? k = some v) :
    j.val.get k = some v.val := by
  unfold member? at h
  split at h
  · cases h
  · rename_i found
    cases h
    exact found

theorem member?_eq_none {j : JsonValue} {k : String} (h : j.member? k = none) :
    j.val.get k = none := by
  unfold member? at h
  split at h
  · assumption
  · cases h

end JsonValue

end VaidSuite
