import VaidSuite.Identity

/-! Base64url by its sextets: what is encoded decodes, and what is canonical is encoded. -/
namespace VaidSuite

/-- The sextets of bytes, the last one filled with zero bits. -/
def sextets : Bytes → List Nat
  | [] => []
  | [a] => [a.toNat / 4, a.toNat % 4 * 16]
  | [a, b] => [a.toNat / 4, a.toNat % 4 * 16 + b.toNat / 16, b.toNat % 16 * 4]
  | a :: b :: c :: rest =>
    a.toNat / 4 :: (a.toNat % 4 * 16 + b.toNat / 16) :: (b.toNat % 16 * 4 + c.toNat / 64) ::
      c.toNat % 64 :: sextets rest

theorem sextet_mod (n : Nat) : sextet (n % 64) = sextet n := by rw [sextet, sextet, Nat.mod_mod]

theorem sextet_eq {m n : Nat} (same : m % 64 = n % 64) : sextet m = sextet n := by
  rw [← sextet_mod m, same, sextet_mod]

theorem base64Url_eq (data : Bytes) : base64Url data = (sextets data).map sextet := by
  fun_induction base64Url data with
  | case1 => rfl
  | case2 a =>
    rw [sextets, List.map_cons, List.map_singleton, sextet_eq (m := a.toNat * 16) (n := a.toNat % 4 * 16) (by omega)]
  | case3 a b =>
    rw [sextets, List.map_cons, List.map_cons, List.map_singleton,
      sextet_eq (m := a.toNat * 16 + b.toNat / 16) (n := a.toNat % 4 * 16 + b.toNat / 16) (by omega),
      sextet_eq (m := b.toNat * 4) (n := b.toNat % 16 * 4) (by omega)]
  | case4 a b c rest ih =>
    rw [sextets, ih, List.map_cons, List.map_cons, List.map_cons, List.map_cons, sextet_mod]

theorem sextets_lt (data : Bytes) : ∀ n ∈ sextets data, n < 64 := by
  have bound : ∀ a : UInt8, a.toNat < 256 := fun a => a.toNat_lt
  fun_induction sextets data with
  | case1 => simp
  | case2 a =>
    have := bound a
    simp only [List.forall_mem_cons, List.not_mem_nil, false_imp_iff, implies_true, and_true]
    omega
  | case3 a b =>
    have := bound a
    have := bound b
    simp only [List.forall_mem_cons, List.not_mem_nil, false_imp_iff, implies_true, and_true]
    omega
  | case4 a b c rest ih =>
    have := bound a
    have := bound b
    have := bound c
    simp only [List.forall_mem_cons]
    exact ⟨by omega, by omega, by omega, by omega, ih⟩

theorem length_sextets (data : Bytes) : (sextets data).length = (4 * data.length + 2) / 3 := by
  fun_induction sextets data with
  | case1 => simp
  | case2 a => simp
  | case3 a b => simp
  | case4 a b c rest ih =>
    simp only [List.length_cons, ih]
    omega

theorem length_decodeSextets (xs : List Nat) : (decodeSextets xs).length = 3 * xs.length / 4 := by
  fun_induction decodeSextets xs with
  | case1 a b c d rest ih =>
    simp only [List.length_cons, ih]
    omega
  | case2 a b c => simp
  | case3 a b => simp
  | case4 xs notFour notThree notTwo =>
    have short : xs.length ≤ 1 := by
      match xs with
      | [] | [_] => simp
      | [a, b] => exact (notTwo a b rfl).elim
      | [a, b, c] => exact (notThree a b c rfl).elim
      | a :: b :: c :: d :: rest => exact (notFour a b c d rest rfl).elim
    rw [List.length_nil]
    omega

theorem ofNat_eq {n : Nat} {a : UInt8} (same : n = a.toNat) : UInt8.ofNat n = a := by
  rw [same, UInt8.ofNat_toNat]

theorem decodeSextets_sextets (data : Bytes) : decodeSextets (sextets data) = data := by
  have bound : ∀ a : UInt8, a.toNat < 256 := fun a => a.toNat_lt
  fun_induction sextets data with
  | case1 => rfl
  | case2 a =>
    have := bound a
    rw [decodeSextets, ofNat_eq (a := a) (by omega)]
  | case3 a b =>
    have := bound a
    have := bound b
    rw [decodeSextets, ofNat_eq (a := a) (by omega), ofNat_eq (a := b) (by omega)]
  | case4 a b c rest ih =>
    have := bound a
    have := bound b
    have := bound c
    rw [decodeSextets, ofNat_eq (a := a) (by omega), ofNat_eq (a := b) (by omega),
      ofNat_eq (a := c) (by omega), ih]

theorem sextets_injective : Function.Injective sextets :=
  Function.LeftInverse.injective decodeSextets_sextets

/-- Sextets whose bits past the last whole byte are zero. -/
def isCanonical : List Nat → Bool
  | _ :: _ :: _ :: _ :: rest => isCanonical rest
  | [_, _, c] => c % 4 == 0
  | [_, b] => b % 16 == 0
  | [_] => false
  | [] => true

theorem isCanonical_sextets (data : Bytes) : isCanonical (sextets data) = true := by
  fun_induction sextets data with
  | case1 => rfl
  | case2 a =>
    rw [isCanonical, beq_iff_eq]
    omega
  | case3 a b =>
    rw [isCanonical, beq_iff_eq]
    omega
  | case4 a b c rest ih => exact ih

theorem sextets_decodeSextets {xs : List Nat} (small : ∀ n ∈ xs, n < 64) (canonical : isCanonical xs = true) :
    sextets (decodeSextets xs) = xs := by
  fun_induction isCanonical xs with
  | case1 a b c d rest ih =>
    simp only [List.forall_mem_cons] at small
    obtain ⟨ha, hb, hc, hd, small⟩ := small
    rw [decodeSextets, sextets, ih small canonical]
    simp only [UInt8.toNat_ofNat', List.cons.injEq, and_true]
    refine ⟨?_, ?_, ?_, ?_⟩ <;> omega
  | case2 a b c =>
    simp only [List.forall_mem_cons] at small
    obtain ⟨ha, hb, hc, _⟩ := small
    rw [beq_iff_eq] at canonical
    simp only [decodeSextets, sextets, UInt8.toNat_ofNat', List.cons.injEq, and_true]
    refine ⟨?_, ?_, ?_⟩ <;> omega
  | case3 a b =>
    simp only [List.forall_mem_cons] at small
    obtain ⟨ha, hb, _⟩ := small
    rw [beq_iff_eq] at canonical
    simp only [decodeSextets, sextets, UInt8.toNat_ofNat', List.cons.injEq, and_true]
    refine ⟨?_, ?_⟩ <;> omega
  | case4 a => cases canonical
  | case5 => rfl

end VaidSuite
