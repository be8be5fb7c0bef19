import Mathlib.Algebra.Order.Field.Power
import Mathlib.Data.Int.Log
import Mathlib.Data.Rat.Floor
import Mathlib.Tactic.FieldSimp
import Mathlib.Tactic.Positivity
import VaidSuite.Lib.Binary64

/-! The shortest decimal that reads as a given double. That some decimal reads as it rests on
this: a fraction which a double denotes exactly is rounded to that double. -/
namespace Binary64

theorem zpow_split (z : Int) : (2 : ℚ) ^ z = 2 ^ z.toNat / 2 ^ (-z).toNat := by
  rcases le_total 0 z with nonneg | nonpos
  · rw [Int.toNat_of_nonpos (by omega : -z ≤ 0), pow_zero, div_one, ← zpow_natCast,
      Int.toNat_of_nonneg nonneg]
  · rw [Int.toNat_of_nonpos nonpos, pow_zero, one_div, ← zpow_natCast, Int.toNat_of_nonneg (by omega),
      zpow_neg, inv_inv]

theorem zpow_le_div_iff {p q : Nat} (positive : 0 < q) (z : Int) :
    q * 2 ^ z.toNat ≤ p * 2 ^ (-z).toNat ↔ (2 : ℚ) ^ z ≤ p / q := by
  have q0 : (0 : ℚ) < q := by exact_mod_cast positive
  rw [zpow_split, div_le_div_iff₀ (by positivity) q0, mul_comm ((2 : ℚ) ^ z.toNat)]
  exact_mod_cast Iff.rfl

theorem zpow_log2 {p q : Nat} (hp : p ≠ 0) (hq : q ≠ 0) :
    (2 : ℚ) ^ ((p.log2 : Int) - q.log2 - 1) < p / q ∧ (p : ℚ) / q < 2 ^ ((p.log2 : Int) - q.log2 + 1) := by
  have q0 : (0 : ℚ) < q := by exact_mod_cast Nat.pos_of_ne_zero hq
  have lowP : (2 : ℚ) ^ (p.log2 : Int) ≤ p := by exact_mod_cast Nat.log2_self_le hp
  have lowQ : (2 : ℚ) ^ (q.log2 : Int) ≤ q := by exact_mod_cast Nat.log2_self_le hq
  have highP : (p : ℚ) < 2 ^ ((p.log2 : Int) + 1) := by exact_mod_cast Nat.lt_log2_self
  have highQ : (q : ℚ) < 2 ^ ((q.log2 : Int) + 1) := by exact_mod_cast Nat.lt_log2_self
  constructor
  · rw [lt_div_iff₀ q0]
    calc (2 : ℚ) ^ ((p.log2 : Int) - q.log2 - 1) * q
        < 2 ^ ((p.log2 : Int) - q.log2 - 1) * 2 ^ ((q.log2 : Int) + 1) := by gcongr
      _ = 2 ^ (p.log2 : Int) := by
        rw [← zpow_add₀ two_ne_zero]
        congr 1
        ring
      _ ≤ p := lowP
  · rw [div_lt_iff₀ q0]
    calc (p : ℚ) < 2 ^ ((p.log2 : Int) + 1) := highP
      _ = 2 ^ ((p.log2 : Int) - q.log2 + 1) * 2 ^ (q.log2 : Int) := by
        rw [← zpow_add₀ two_ne_zero]
        congr 1
        ring
      _ ≤ 2 ^ ((p.log2 : Int) - q.log2 + 1) * q := by gcongr

theorem lastPlace_eq {p q : Nat} (hp : p ≠ 0) (hq : q ≠ 0) :
    lastPlace p q = max (Int.log 2 ((p : ℚ) / q) - 52) (-1074) := by
  have p0 : (0 : ℚ) < p := by exact_mod_cast Nat.pos_of_ne_zero hp
  have q0 : (0 : ℚ) < q := by exact_mod_cast Nat.pos_of_ne_zero hq
  obtain ⟨low, high⟩ := zpow_log2 hp hq
  have below := (Int.zpow_le_iff_le_log (b := 2) (by decide) (div_pos p0 q0)).mp (by
    rw [Nat.cast_ofNat]
    exact low.le)
  have above := (Int.lt_zpow_iff_log_lt (b := 2) (by decide) (div_pos p0 q0)).mp (by
    rw [Nat.cast_ofNat]
    exact high)
  unfold lastPlace
  dsimp only
  split_ifs with reaches
  · rw [zpow_le_div_iff (Nat.pos_of_ne_zero hq)] at reaches
    have reached := (Int.zpow_le_iff_le_log (b := 2) (by decide) (div_pos p0 q0)).mp
      (by rwa [Nat.cast_ofNat])
    rw [show Int.log 2 ((p : ℚ) / q) = (p.log2 : Int) - q.log2 by omega]
  · rw [zpow_le_div_iff (Nat.pos_of_ne_zero hq), not_le] at reaches
    have missed := (Int.lt_zpow_iff_log_lt (b := 2) (by decide) (div_pos p0 q0)).mp
      (by rwa [Nat.cast_ofNat])
    rw [show Int.log 2 ((p : ℚ) / q) = (p.log2 : Int) - q.log2 - 1 by omega]

/-- A fraction of exactly so many units is not rounded. -/
theorem roundHalfEven_exact {n d m : Nat} (positive : 0 < d) (exact : n = m * d) :
    TrueDivision.roundHalfEven n d = m := by
  rw [exact, TrueDivision.roundHalfEven, Nat.mul_mod_left, Nat.mul_div_cancel m positive]
  exact if_pos (.inl positive)

theorem log_div_eq {p q m : Nat} {z : Int} (hm : m ≠ 0) (denotes : (p : ℚ) / q = m * 2 ^ z) :
    Int.log 2 ((p : ℚ) / q) = m.log2 + z := by
  have m0 : (0 : ℚ) < m := by exact_mod_cast Nat.pos_of_ne_zero hm
  have low : (2 : ℚ) ^ (m.log2 : Int) ≤ m := by exact_mod_cast Nat.log2_self_le hm
  have high : (m : ℚ) < 2 ^ ((m.log2 : Int) + 1) := by exact_mod_cast Nat.lt_log2_self
  have positive : (0 : ℚ) < m * 2 ^ z := by positivity
  rw [denotes]
  have above := (Int.zpow_le_iff_le_log (b := 2) (x := m.log2 + z) (by decide) positive).mp (by
    rw [Nat.cast_ofNat, zpow_add₀ two_ne_zero]
    gcongr)
  have below := (Int.lt_zpow_iff_log_lt (b := 2) (x := m.log2 + z + 1) (by decide) positive).mp (by
    rw [Nat.cast_ofNat, show (m.log2 : Int) + z + 1 = (m.log2 + 1) + z by ring, zpow_add₀ two_ne_zero]
    gcongr)
  omega

/-- A double without its sign. -/
def magnitude (b : Bits) : Bits := BitVec.ofNat 64 (b.toNat % 2 ^ 63)

theorem fraction_add_exponent (b : Bits) : b.toNat % 2 ^ 63 = exponent b * 2 ^ 52 + fraction b := by
  unfold exponent fraction
  omega

theorem nearest_exact {b : Bits} (finite : isFinite b = true) {p q : Nat} (hp : p ≠ 0) (hq : q ≠ 0)
    (denotes : p * 2 ^ 1075 = significand b * 2 ^ scale b * q) : nearest p q = magnitude b := by
  have bounded : exponent b < 2047 := by
    have below : exponent b < 2048 := Nat.mod_lt _ (by decide)
    have := bne_iff_ne.mp finite
    omega
  have small : fraction b < 2 ^ 52 := Nat.mod_lt _ (by decide)
  have units : significand b ≠ 0 := by
    intro zero
    rw [zero, Nat.zero_mul, Nat.zero_mul] at denotes
    exact absurd denotes (Nat.mul_ne_zero hp (by positivity))
  obtain ⟨bias, named⟩ : ∃ bias, bias = 1075 := ⟨_, rfl⟩
  rw [← named] at denotes
  have place : lastPlace p q = (scale b : Int) - bias := by
    rw [lastPlace_eq hp hq, log_div_eq units (z := (scale b : Int) - bias)]
    · unfold significand at units ⊢
      unfold scale
      split_ifs at units ⊢ with subnormal
      · have low : (fraction b).log2 < 52 := (Nat.log2_lt units).mpr small
        omega
      · have low : 52 ≤ (fraction b + 2 ^ 52).log2 := (Nat.le_log2 units).mpr (by omega)
        have high : (fraction b + 2 ^ 52).log2 < 53 := (Nat.log2_lt units).mpr (by omega)
        omega
    · have q0 : (q : ℚ) ≠ 0 := by exact_mod_cast hq
      have cross : (p : ℚ) * 2 ^ bias = significand b * 2 ^ scale b * q := by exact_mod_cast denotes
      rw [zpow_sub₀ two_ne_zero, zpow_natCast, zpow_natCast, div_eq_iff q0]
      field_simp
      linarith
  have digits : TrueDivision.roundHalfEven (p * 2 ^ (-lastPlace p q).toNat) (q * 2 ^ (lastPlace p q).toNat) =
      significand b := by
    refine roundHalfEven_exact (Nat.mul_pos (Nat.pos_of_ne_zero hq) (by positivity)) ?_
    rw [place]
    rcases Nat.le_total (scale b) bias with below | above
    · obtain ⟨gap, fills⟩ := Nat.exists_eq_add_of_le below
      rw [show ((scale b : Int) - bias).toNat = 0 by omega,
        show (-((scale b : Int) - bias)).toNat = gap by omega]
      rw [fills, pow_add] at denotes
      have unit : 0 < 2 ^ scale b := by positivity
      refine Nat.eq_of_mul_eq_mul_left unit ?_
      rw [pow_zero, Nat.mul_one]
      linarith
    · obtain ⟨gap, fills⟩ := Nat.exists_eq_add_of_le above
      rw [show ((scale b : Int) - bias).toNat = gap by omega,
        show (-((scale b : Int) - bias)).toNat = 0 by omega]
      rw [fills, pow_add] at denotes
      have unit : 0 < 2 ^ bias := by positivity
      refine Nat.eq_of_mul_eq_mul_left unit ?_
      rw [pow_zero, Nat.mul_one]
      linarith
  have bits : ((scale b : Int) - bias + 1074).toNat * 2 ^ 52 + significand b =
      exponent b * 2 ^ 52 + fraction b := by
    unfold significand scale
    split_ifs with subnormal <;> omega
  rw [nearest, if_neg hp]
  dsimp only
  rw [digits, place, bits, magnitude, fraction_add_exponent, Nat.min_eq_left (by omega)]

/-- The integers around `p / q * 10 ^ -e`, the nearer one first. -/
def around (p q : Nat) (e : Int) : List Nat :=
  let n := p * 10 ^ (-e).toNat
  let d := q * 10 ^ e.toNat
  let near := TrueDivision.roundHalfEven n d
  [near, if near = n / d then n / d + 1 else n / d]

/-- The integer and the power of ten of a decimal without a sign. -/
abbrev Decimal := Nat × Int

def Decimal.nearest (c : Decimal) : Bits :=
  Binary64.nearest (c.1 * 10 ^ c.2.toNat) (10 ^ (-c.2).toNat)

/-- How many digits the whole part of `p / q` has, or, when negative, how many zeros follow
the point. -/
def leadingPlace (p q : Nat) : Int :=
  if q ≤ p then Nat.log 10 (p / q) + 1 else -Nat.log 10 (q / p)

/-- The decimals of ever more digits around a fraction. Seventeen digits are enough to tell a
double from all others. -/
def candidates (p q : Nat) : List Decimal :=
  (List.range 18).flatMap (fun k =>
    (around p q (leadingPlace p q - k)).map (fun digits => (digits, leadingPlace p q - k)))

/-- All digits of a double without its sign. -/
def exactDecimal (b : Bits) : Decimal := (significand b * 2 ^ scale b * 10 ^ 1074 / 2 ^ 1075, -1074)

/-- The decimal of the fewest digits that reads as a finite double other than zero, without
its sign. -/
def shortest (b : Bits) : Decimal :=
  ((candidates (significand b * 2 ^ scale b) (2 ^ 1075)).find? (fun c => c.nearest == magnitude b)).getD
    (exactDecimal b)

theorem exactDecimal_nearest {b : Bits} (finite : isFinite b = true) (units : significand b ≠ 0) :
    (exactDecimal b).nearest = magnitude b := by
  obtain ⟨places, named⟩ : ∃ places, places = 1074 := ⟨_, rfl⟩
  have whole : (exactDecimal b).1 * 2 ^ 1075 = significand b * 2 ^ scale b * 10 ^ 1074 := by
    unfold exactDecimal
    refine Nat.div_mul_cancel ?_
    obtain ⟨more, scaled⟩ : ∃ more, scale b = more + 1 := ⟨scale b - 1, by unfold scale; omega⟩
    refine ⟨significand b * 2 ^ more * 5 ^ 1074, ?_⟩
    rw [scaled, show 1075 = 1074 + 1 from rfl, ← named, show 10 = 2 * 5 from rfl, mul_pow]
    ring
  have some_ : (exactDecimal b).1 ≠ 0 := by
    intro zero
    rw [zero, Nat.zero_mul] at whole
    exact absurd whole.symm (by positivity)
  have reads := nearest_exact finite some_ (pow_ne_zero 1074 (by decide : 10 ≠ 0)) whole
  rw [Decimal.nearest, show (exactDecimal b).2 = -1074 from rfl,
    show (-1074 : Int).toNat = 0 from rfl, pow_zero, Nat.mul_one,
    show (- -1074 : Int).toNat = 1074 from rfl]
  exact reads

theorem shortest_nearest {b : Bits} (finite : isFinite b = true) (units : significand b ≠ 0) :
    (shortest b).nearest = magnitude b := by
  unfold shortest
  generalize candidates _ _ = tried
  cases found : tried.find? (fun c => c.nearest == magnitude b) with
  | some c =>
    have reads := List.find?_some found
    exact beq_iff_eq.mp reads
  | none => exact exactDecimal_nearest finite units

theorem significand_ne_zero {b : Bits} (h : isZero b = false) : significand b ≠ 0 := by
  have low : b.toNat % 2 ^ 63 ≠ 0 := by simpa [isZero] using h
  rw [fraction_add_exponent] at low
  unfold significand
  split_ifs with subnormal
  · rw [subnormal] at low
    omega
  · omega

theorem xor_high {n : Nat} (small : n < 2 ^ 63) : n ^^^ 2 ^ 63 = 2 ^ 63 + n := by
  have high : (n ^^^ 2 ^ 63) / 2 ^ 63 = 1 := by
    rw [Nat.xor_div_two_pow, Nat.div_eq_of_lt small, Nat.div_self (by decide)]
    rfl
  have low : (n ^^^ 2 ^ 63) % 2 ^ 63 = n := by
    rw [Nat.xor_mod_two_pow, Nat.mod_eq_of_lt small, Nat.mod_self, Nat.xor_zero]
  have split := Nat.div_add_mod (n ^^^ 2 ^ 63) (2 ^ 63)
  rw [high, low, Nat.mul_one] at split
  exact split.symm

theorem neg_magnitude (b : Bits) : (if negative b then neg (magnitude b) else magnitude b) = b := by
  have size := b.isLt
  have small : b.toNat % 2 ^ 63 < 2 ^ 63 := Nat.mod_lt _ (by decide)
  split_ifs with sign
  · have high : 2 ^ 63 ≤ b.toNat := by simpa [negative] using sign
    refine BitVec.eq_of_toNat_eq ?_
    rw [neg, magnitude, BitVec.toNat_xor, BitVec.toNat_ofNat, BitVec.toNat_ofNat,
      Nat.mod_eq_of_lt (by omega : b.toNat % 2 ^ 63 < 2 ^ 64),
      Nat.mod_eq_of_lt (by decide : 2 ^ 63 < 2 ^ 64), xor_high small]
    omega
  · have low : ¬ 2 ^ 63 ≤ b.toNat := by simpa [negative] using sign
    refine BitVec.eq_of_toNat_eq ?_
    rw [magnitude, BitVec.toNat_ofNat]
    omega

theorem ofDecimal_shortest {b : Bits} (finite : isFinite b = true) (h : isZero b = false) :
    ofDecimal (negative b) (shortest b).1 (shortest b).2 = b := by
  have reads := shortest_nearest finite (significand_ne_zero h)
  rw [Decimal.nearest] at reads
  rw [ofDecimal, reads]
  exact neg_magnitude b

theorem isNaN_of_le {b : Bits} (bound : b.toNat % 2 ^ 63 ≤ 2047 * 2 ^ 52) : isNaN b = false := by
  rw [isNaN, Bool.and_eq_false_iff, beq_eq_false_iff_ne, bne_eq_false_iff_eq]
  unfold exponent fraction
  omega

theorem nearest_le (p q : Nat) : (nearest p q).toNat ≤ 2047 * 2 ^ 52 := by
  unfold nearest
  split_ifs
  · decide
  · rw [BitVec.toNat_ofNat]
    exact (Nat.mod_le _ _).trans (Nat.min_le_right _ _)

theorem isNaN_ofDecimal (negative : Bool) (digits : Nat) (exponent : Int) :
    isNaN (ofDecimal negative digits exponent) = false := by
  have bound := nearest_le (digits * 10 ^ exponent.toNat) (10 ^ (-exponent).toNat)
  unfold ofDecimal
  dsimp only
  refine isNaN_of_le ?_
  split_ifs
  · rw [neg, BitVec.toNat_xor, BitVec.toNat_ofNat, Nat.mod_eq_of_lt (by decide : 2 ^ 63 < 2 ^ 64),
      xor_high (by omega)]
    omega
  · omega

end Binary64
