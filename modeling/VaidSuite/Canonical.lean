import Mathlib.Data.Nat.Pairing
import VaidSuite.Attestation
import VaidSuite.Lib.Binary64

/-! What a signing digest determines. RFC 8785 writes numbers as doubles, so the digest of a
value determines it up to the numbers that are one double. -/
namespace VaidSuite

/-- The double that a number is written as. The two zeros are written alike. -/
def JsonNumber.toDouble : JsonNumber → Binary64.Bits
  | .int n =>
    if n < 0 then Binary64.neg (Binary64.ofNat n.natAbs) else Binary64.ofNat n.natAbs
  | .float bits => if Binary64.isZero bits then 0 else bits

namespace Json

variable {σ : Type}

mutual

def doubles : Json σ → Json σ
  | .num n => .num (.float n.toDouble)
  | .arr items => .arr (doublesItems items)
  | .obj members => .obj (doublesMembers members)
  | .null => .null
  | .bool b => .bool b
  | .str s => .str s

def doublesItems : List (Json σ) → List (Json σ)
  | [] => []
  | j :: items => j.doubles :: doublesItems items

def doublesMembers : List (σ × Json σ) → List (σ × Json σ)
  | [] => []
  | (k, j) :: members => (k, j.doubles) :: doublesMembers members

end

theorem get_doubles [DecidableEq σ] (j : Json σ) (k : σ) : j.doubles.get k = (j.get k).map doubles := by
  cases j with
  | obj members =>
    rw [doubles, get, get]
    induction members with
    | nil => rfl
    | cons m members ih =>
      obtain ⟨k', j⟩ := m
      rw [doublesMembers, List.lookup_cons, List.lookup_cons]
      cases k == k' with
      | true => rfl
      | false => exact ih
  | _ => simp [doubles, get]

theorem orderedMembers_of {members : List (String × Json String)}
    (each : ∀ m ∈ members, m.2.ordered = true) : orderedMembers members = true := by
  induction members with
  | nil => rfl
  | cons m members ih =>
    obtain ⟨k, j⟩ := m
    rw [orderedMembers, Bool.and_eq_true]
    exact ⟨each _ List.mem_cons_self, ih (fun m hm => each m (List.mem_cons_of_mem _ hm))⟩

theorem orderedItems_of {items : List (Json String)} (each : ∀ j ∈ items, j.ordered = true) :
    orderedItems items = true := by
  induction items with
  | nil => rfl
  | cons j items ih =>
    rw [orderedItems, Bool.and_eq_true]
    exact ⟨each _ List.mem_cons_self, ih (fun i hi => each i (List.mem_cons_of_mem _ hi))⟩

theorem ordered_object {members : List (String × Json String)}
    (each : ∀ m ∈ members, m.2.ordered = true) : (object members).ordered = true := by
  rw [object, ordered, Bool.and_eq_true, decide_eq_true_eq]
  exact ⟨SortedMap.ofList_sorted _,
    orderedMembers_of (fun m member => each m (SortedMap.mem_ofList member))⟩

theorem ordered_insert {j v : Json String} (h : j.ordered = true) (hv : v.ordered = true)
    (k : String) : (j.insert k v).ordered = true := by
  cases j with
  | obj members =>
    simp only [ordered, Bool.and_eq_true, decide_eq_true_eq] at h
    rw [insert, ordered, Bool.and_eq_true, decide_eq_true_eq]
    refine ⟨SortedMap.insert_sorted h.1, orderedMembers_of (fun m member => ?_)⟩
    rcases SortedMap.mem_insert member with rfl | member
    · exact hv
    · exact ordered_of_member h.2 member
  | _ => exact h

theorem ordered_strings (texts : List String) : (arr (texts.map str)).ordered = true := by
  rw [ordered]
  refine orderedItems_of (fun j member => ?_)
  obtain ⟨s, _, rfl⟩ := List.mem_map.mp member
  rfl

theorem ordered_ofBytes (b : Bytes) : (ofBytes b : Json String).ordered = true := by
  rw [ofBytes, ordered]
  refine orderedItems_of (fun j member => ?_)
  obtain ⟨x, _, rfl⟩ := List.mem_map.mp member
  rfl

end Json

theorem ScopeBoundaryEntry.ordered_toJson (e : ScopeBoundaryEntry) : e.toJson.ordered = true :=
  Json.ordered_object (by simpa [Json.ordered] using e.value.property)

theorem ordered_boundary (boundary : List ScopeBoundaryEntry) :
    (Json.arr (boundary.map ScopeBoundaryEntry.toJson)).ordered = true := by
  rw [Json.ordered]
  refine Json.orderedItems_of (fun j member => ?_)
  obtain ⟨e, _, rfl⟩ := List.mem_map.mp member
  exact e.ordered_toJson

theorem Vaid.ordered_toJson (v : Vaid) : v.toJson.ordered = true := by
  refine Json.ordered_object (fun m member => ?_)
  rcases List.mem_append.mp member with named | unknown
  · simp only [namedMembers, List.mem_append] at named
    rcases named with (named | parent) | named
    · simp only [List.mem_cons, List.not_mem_nil, or_false] at named
      rcases named with rfl | rfl | rfl | rfl | rfl | rfl | rfl | rfl | rfl | rfl <;>
        first | rfl | exact Json.ordered_ofBytes _
    · split at parent
      · cases parent
      · cases List.mem_singleton.mp parent
        rfl
      · cases List.mem_singleton.mp parent
        rfl
    · simp only [List.mem_cons, List.not_mem_nil, or_false] at named
      rcases named with rfl | rfl | rfl | rfl | rfl
      · exact ordered_boundary _
      · rfl
      · exact Json.ordered_strings _
      · rfl
      · rfl
  · exact Json.ordered_of_member v.unknownFields.ordered unknown

theorem ConsentAttestation.ordered_toJson [Chrono] (a : ConsentAttestation) :
    a.toJson.ordered = true := by
  refine Json.ordered_object (fun m member => ?_)
  simp only [List.mem_cons, List.not_mem_nil, or_false] at member
  rcases member with rfl | rfl | rfl | rfl | rfl | rfl | rfl | rfl | rfl | rfl | rfl | rfl <;>
    first
      | rfl
      | exact ordered_boundary _
      | exact Json.ordered_strings _
      | exact Json.ordered_ofBytes _

section Assumptions

variable [Crypto]

/-- Values that are canonicalized to the same text differ at most in how numbers are given. -/
def Crypto.JcsInjective : Prop :=
  ∀ j j' : JsonValue, Crypto.jcs j.val = Crypto.jcs j'.val → j.val.doubles = j'.val.doubles

/-- A signature that a key pair makes verifies for no other message. -/
def Crypto.SignaturesBind : Prop :=
  ∀ (kp : Ed25519KeyPair) (message other : Bytes),
    Crypto.ed25519Verify (Crypto.publicKey kp) other (Crypto.sign kp message) = true → other = message

/-- A signature verifies for at most one message under this key. -/
def Crypto.Binds (publicKey : Bytes) : Prop :=
  ∀ message other signature : Bytes, Crypto.ed25519Verify publicKey message signature = true →
    Crypto.ed25519Verify publicKey other signature = true → message = other

theorem doubles_of_digest (collisionFree : Function.Injective Crypto.sha256)
    (injective : Crypto.JcsInjective) {j j' : Json String} (hj : j.ordered = true)
    (hj' : j'.ordered = true) (same : Crypto.sha256 (Crypto.jcs j) = Crypto.sha256 (Crypto.jcs j')) :
    j.doubles = j'.doubles :=
  injective ⟨j, hj⟩ ⟨j', hj'⟩ (collisionFree same)

end Assumptions

namespace Json

def codeText : List Char → Nat
  | [] => 0
  | c :: cs => Nat.pair c.toNat (codeText cs) + 1

mutual

/-- A number for each value, the same for two values only if their doubles agree. -/
def code : Json String → Nat
  | .null => Nat.pair 0 0
  | .bool b => Nat.pair 1 b.toNat
  | .num n => Nat.pair 2 n.toDouble.toNat
  | .str s => Nat.pair 3 (codeText s.toList)
  | .arr items => Nat.pair 4 (codeItems items)
  | .obj members => Nat.pair 5 (codeMembers members)

def codeItems : List (Json String) → Nat
  | [] => 0
  | j :: items => Nat.pair j.code (codeItems items) + 1

def codeMembers : List (String × Json String) → Nat
  | [] => 0
  | (k, j) :: members => Nat.pair (Nat.pair (codeText k.toList) j.code) (codeMembers members) + 1

end

theorem codeText_injective {cs cs' : List Char} (same : codeText cs = codeText cs') : cs = cs' := by
  induction cs generalizing cs' with
  | nil =>
    cases cs' with
    | nil => rfl
    | cons c cs' => simp [codeText] at same
  | cons c cs ih =>
    cases cs' with
    | nil => simp [codeText] at same
    | cons c' cs' =>
      simp only [codeText, Nat.add_right_cancel_iff, Nat.pair_eq_pair] at same
      rw [ih same.2, Char.toNat_inj.mp same.1]

mutual

theorem doubles_of_code : ∀ {j j' : Json String}, j.code = j'.code → j.doubles = j'.doubles
  | .null, j', same => by
    cases j' <;> simp [code, Nat.pair_eq_pair] at same
    rfl
  | .bool b, j', same => by
    cases j' <;> simp [code, Nat.pair_eq_pair] at same
    rename_i b'
    cases b <;> cases b' <;> simp_all
  | .num n, j', same => by
    cases j' <;> simp [code, Nat.pair_eq_pair] at same
    rw [doubles, doubles, BitVec.eq_of_toNat_eq same]
  | .str s, j', same => by
    cases j' <;> simp [code, Nat.pair_eq_pair] at same
    rw [String.ext (codeText_injective same)]
  | .arr items, j', same => by
    cases j' <;> simp [code, Nat.pair_eq_pair] at same
    rw [doubles, doubles, doubles_of_codeItems same]
  | .obj members, j', same => by
    cases j' <;> simp [code, Nat.pair_eq_pair] at same
    rw [doubles, doubles, doubles_of_codeMembers same]

theorem doubles_of_codeItems : ∀ {items items' : List (Json String)},
    codeItems items = codeItems items' → doublesItems items = doublesItems items'
  | [], [], _ => rfl
  | [], _ :: _, same => by simp [codeItems] at same
  | _ :: _, [], same => by simp [codeItems] at same
  | j :: items, j' :: items', same => by
    simp only [codeItems, Nat.add_right_cancel_iff, Nat.pair_eq_pair] at same
    rw [doublesItems, doublesItems, doubles_of_code same.1, doubles_of_codeItems same.2]

theorem doubles_of_codeMembers : ∀ {members members' : List (String × Json String)},
    codeMembers members = codeMembers members' → doublesMembers members = doublesMembers members'
  | [], [], _ => rfl
  | [], _ :: _, same => by simp [codeMembers] at same
  | _ :: _, [], same => by simp [codeMembers] at same
  | (k, j) :: members, (k', j') :: members', same => by
    simp only [codeMembers, Nat.add_right_cancel_iff, Nat.pair_eq_pair] at same
    rw [doublesMembers, doublesMembers, doubles_of_code same.1.2, doubles_of_codeMembers same.2,
      String.ext (codeText_injective same.1.1)]

end

end Json

/-- A stand-in with no two values of one digest and no two messages of one signature. -/
@[reducible] def Crypto.ideal : Crypto where
  sha256 := id
  jcs j := List.replicate j.code 0
  publicKey kp := kp.seed
  sign kp message := kp.seed ++ message
  ed25519Verify publicKey message signature := signature == publicKey ++ message

theorem Crypto.ideal_jcsInjective : @Crypto.JcsInjective Crypto.ideal := by
  intro j j' same
  have lengths : (List.replicate j.val.code (0 : UInt8)).length =
      (List.replicate j'.val.code (0 : UInt8)).length := congrArg List.length same
  exact Json.doubles_of_code (by simpa using lengths)

theorem Crypto.ideal_binds (publicKey : Bytes) : @Crypto.Binds Crypto.ideal publicKey := by
  intro message other signature first second
  exact List.append_cancel_left ((eq_of_beq first).symm.trans (eq_of_beq second))

theorem Crypto.ideal_signaturesBind : @Crypto.SignaturesBind Crypto.ideal := by
  intro kp message other verifies
  exact (List.append_cancel_left (eq_of_beq verifies)).symm

end VaidSuite
