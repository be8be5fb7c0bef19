import Mathlib.Tactic.Linarith
import Mathlib.Tactic.Ring

/-! Division of integers in double precision, and its truncation. The correctly rounded
quotient can reach the next integer, and this says when it does. -/
namespace TrueDivision

/-- The nearest integer to `n / d`, and of two equally near the even one. -/
def roundHalfEven (n d : Nat) : Nat :=
  if 2 * (n % d) < d ∨ 2 * (n % d) = d ∧ n / d % 2 = 0 then n / d else n / d + 1

def fractionBits (whole : Nat) : Nat := 52 - whole.log2

/-- The whole part of the double nearest to `n / d`, for a quotient below `2 ^ 53`.
A quotient below 1 has the whole part 0, however fine its last bit is. -/
def wholePart (n d : Nat) : Nat :=
  roundHalfEven (n * 2 ^ fractionBits (n / d)) d / 2 ^ fractionBits (n / d)

/-- The quotient is nearer to the next integer than a double can tell. -/
def RoundsUp (n d : Nat) : Prop := (d - n % d) * 2 ^ (fractionBits (n / d) + 1) ≤ d

instance (n d : Nat) : Decidable (RoundsUp n d) := inferInstanceAs (Decidable (_ ≤ _))

theorem roundHalfEven_le {n d m : Nat} (positive : 0 < d) (h : 2 * n < (2 * m + 1) * d) :
    roundHalfEven n d ≤ m := by
  have split := Nat.div_add_mod n d
  have small := Nat.mod_lt n positive
  unfold roundHalfEven
  generalize n / d = q at split ⊢
  generalize n % d = r at split small ⊢
  have whole : q ≤ m := by
    by_contra more
    have : (m + 1) * d ≤ q * d := Nat.mul_le_mul_right d (by omega)
    nlinarith
  split_ifs with low
  · exact whole
  · rcases whole.lt_or_eq with less | same
    · exact less
    · have : d ≤ 2 * r := by
        by_contra less
        exact low (.inl (by omega))
      rw [same] at split
      nlinarith

theorem le_roundHalfEven {n d m : Nat} (positive : 0 < d) (even : m % 2 = 0)
    (h : 2 * m * d ≤ 2 * n + d) : m ≤ roundHalfEven n d := by
  have split := Nat.div_add_mod n d
  have small := Nat.mod_lt n positive
  unfold roundHalfEven
  generalize n / d = q at split ⊢
  generalize n % d = r at split small ⊢
  have near : m ≤ q + 1 := by
    by_contra more
    have : (q + 2) * d ≤ m * d := Nat.mul_le_mul_right d (by omega)
    nlinarith
  split_ifs with low
  · by_contra more
    have next : m = q + 1 := by omega
    rw [next] at h
    rcases low with low | ⟨_, tie⟩
    · nlinarith
    · omega
  · exact near

theorem fractionBits_pos {whole : Nat} (bounded : whole < 2 ^ 52) : 0 < fractionBits whole := by
  unfold fractionBits
  by_cases zero : whole = 0
  · simp [zero]
  · have := (Nat.log2_lt zero).mpr bounded
    omega

theorem roundHalfEven_div {n d bits : Nat} (positive : 0 < d) (fraction : 0 < bits) :
    roundHalfEven (n * 2 ^ bits) d / 2 ^ bits =
      if (d - n % d) * 2 ^ (bits + 1) ≤ d then n / d + 1 else n / d := by
  have split := Nat.div_add_mod n d
  have small := Nat.mod_lt n positive
  have unit : 0 < 2 ^ bits := Nat.two_pow_pos bits
  have even : 2 ^ bits % 2 = 0 := by
    obtain ⟨more, rfl⟩ : ∃ more, bits = more + 1 := ⟨bits - 1, by omega⟩
    omega
  have double : 2 ^ (bits + 1) = 2 * 2 ^ bits := by ring
  rw [double]
  generalize 2 ^ bits = u at unit even ⊢
  obtain ⟨gap, fills⟩ : ∃ gap, n % d + gap = d := ⟨d - n % d, by omega⟩
  have gapEq : d - n % d = gap := by omega
  rw [gapEq]
  have evenMul : ∀ k, k * u % 2 = 0 := fun k => by rw [Nat.mul_mod, even, Nat.mul_zero, Nat.zero_mod]
  generalize n / d = q at split ⊢
  generalize n % d = r at split small fills
  have scaled : n * u + gap * u = (q + 1) * u * d := by
    rw [← split, ← fills]
    ring
  have lower : q ≤ roundHalfEven (n * u) d / u := by
    rw [Nat.le_div_iff_mul_le unit]
    refine le_roundHalfEven positive (evenMul q) ?_
    nlinarith
  have upper : roundHalfEven (n * u) d / u ≤ q + 1 := by
    refine Nat.div_le_of_le_mul ?_
    rw [Nat.mul_comm]
    refine roundHalfEven_le positive ?_
    nlinarith
  split_ifs with up
  · refine le_antisymm upper ?_
    rw [Nat.le_div_iff_mul_le unit]
    refine le_roundHalfEven positive (evenMul (q + 1)) ?_
    nlinarith
  · refine le_antisymm (Nat.lt_succ_iff.mp ((Nat.div_lt_iff_lt_mul unit).mpr ?_)) lower
    obtain ⟨k, hk⟩ : ∃ k, (q + 1) * u = k + 1 :=
      ⟨_, (Nat.sub_add_cancel (Nat.mul_pos (Nat.succ_pos q) unit)).symm⟩
    have below : roundHalfEven (n * u) d ≤ k := by
      refine roundHalfEven_le positive ?_
      rw [hk] at scaled
      nlinarith
    rw [Nat.succ_eq_add_one, hk]
    exact Nat.lt_succ_of_le below

theorem wholePart_eq {n d : Nat} (positive : 0 < d) (bounded : n / d < 2 ^ 52) :
    wholePart n d = if RoundsUp n d then n / d + 1 else n / d :=
  roundHalfEven_div positive (fractionBits_pos bounded)

end TrueDivision
