import Mathlib.Data.Nat.Log
import VaidSuite.Lib.TrueDivision

/-! IEEE 754 doubles by their bits: what they denote, how they compare, and the double
nearest to a fraction. -/
namespace Binary64

abbrev Bits := BitVec 64

variable (b : Bits)

def negative : Bool := decide (2 ^ 63 ≤ b.toNat)
def exponent : Nat := b.toNat / 2 ^ 52 % 2048
def fraction : Nat := b.toNat % 2 ^ 52

def isFinite : Bool := exponent b != 2047
def isNaN : Bool := exponent b == 2047 && fraction b != 0
def isZero : Bool := b.toNat % 2 ^ 63 == 0

/-- The magnitude of a finite double is `significand * 2 ^ scale / 2 ^ 1075`. -/
def significand : Nat := if exponent b = 0 then fraction b else fraction b + 2 ^ 52
def scale : Nat := max (exponent b) 1

def whole : Nat := significand b * 2 ^ scale b / 2 ^ 1075

def isInteger : Bool := isFinite b && significand b * 2 ^ scale b % 2 ^ 1075 == 0

/-- Equality of numbers: the two zeros are equal, and no NaN is. -/
def eq (a b : Bits) : Bool := !isNaN a && !isNaN b && (a == b || isZero a && isZero b)

/-- An integer from 0 to 255. -/
def isByte : Bool := isInteger b && (isZero b || !negative b) && decide (whole b ≤ 255)

/-- The whole part modulo 256, of a finite double. -/
def toByte : UInt8 :=
  if !isFinite b then 0
  else if negative b then UInt8.ofNat (256 - whole b % 256)
  else UInt8.ofNat (whole b)

/-- The exponent of the last bit that the double nearest to `p / q` keeps. -/
def lastPlace (p q : Nat) : Int :=
  let bound : Int := (p.log2 : Int) - q.log2
  let floor := if q * 2 ^ bound.toNat ≤ p * 2 ^ (-bound).toNat then bound else bound - 1
  max (floor - 52) (-1074)

/-- The double nearest to `p / q`, and of two equally near the even one. Beyond the largest
it is infinite. -/
def nearest (p q : Nat) : Bits :=
  if p = 0 then 0
  else
    let place := lastPlace p q
    let digits := TrueDivision.roundHalfEven (p * 2 ^ (-place).toNat) (q * 2 ^ place.toNat)
    BitVec.ofNat 64 (min ((place + 1074).toNat * 2 ^ 52 + digits) (2047 * 2 ^ 52))

def neg : Bits := b ^^^ BitVec.ofNat 64 (2 ^ 63)

def ofNat (n : Nat) : Bits := nearest n 1

/-- The double nearest to `± digits * 10 ^ exponent`. -/
def ofDecimal (negative : Bool) (digits : Nat) (exponent : Int) : Bits :=
  let magnitude := nearest (digits * 10 ^ exponent.toNat) (10 ^ (-exponent).toNat)
  if negative then neg magnitude else magnitude

/-- A finite double in units of `2 ^ -1075`. -/
def units : Int := (if negative b then -1 else 1) * (significand b * 2 ^ scale b : Nat)

def nan : Bits := BitVec.ofNat 64 (2047 * 2 ^ 52 + 2 ^ 51)

/-- The sum, rounded to the nearest double. Only two negative zeros make a negative zero. -/
def add (a b : Bits) : Bits :=
  if isNaN a || isNaN b then nan
  else if !isFinite a then if isFinite b || a == b then a else nan
  else if !isFinite b then b
  else
    let sum := units a + units b
    let magnitude := nearest sum.natAbs (2 ^ 1075)
    if sum = 0 then if negative a && negative b then a else 0
    else if sum < 0 then neg magnitude else magnitude

def sub (a b : Bits) : Bits := add a (neg b)

/-- `a < b`. Nothing is less or greater than a NaN. -/
def lt (a b : Bits) : Bool :=
  if isNaN a || isNaN b then false
  else if !isFinite a then negative a && a != b
  else if !isFinite b then !negative b
  else decide (units a < units b)

theorem ofNat_byte : ∀ n < 256, isNaN (ofNat n) = false ∧ isByte (ofNat n) = true ∧
    whole (ofNat n) = n ∧ toByte (ofNat n) = UInt8.ofNat n := by
  decide +kernel

theorem eq_four : ∀ n < 256, eq (ofNat n) (ofNat 4) = (n == 4) := by
  decide +kernel

end Binary64
