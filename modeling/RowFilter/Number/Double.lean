/-!
# Number.Double — 64-bit binary floating-point numbers

A `Double` is its 64 bits: a sign and a magnitude.  Magnitudes that grow as binary words grow as
numbers, so the order is that of one integer, `key`, in which both zeros are `0`.  A finite
magnitude is a whole number of units of 2^-1074 (`units`).  `nearest` rounds a quotient of natural
numbers to the nearest magnitude, a tie to the even one, and what is too large to infinity.
-/

namespace RowFilter

set_option autoImplicit false

/-- A binary64 number by its bits. -/
structure Double where
  bits : UInt64
  deriving DecidableEq, Repr

namespace Double

/-! ## Sign and magnitude -/

/-- The bit of the sign, above those of the magnitude: 2^63. -/
def signBit : Nat := 0x8000000000000000

/-- How many magnitudes lie between a power of two and the next: 2^52. -/
def fractions : Nat := 0x10000000000000

/-- The magnitude of the infinities; larger magnitudes are no numbers. -/
def infinite : Nat := 0x7FF0000000000000

/-- The magnitude of a NaN that signals nothing. -/
def quiet : Nat := 0x7FF8000000000000

def ofSign (negative : Bool) (magnitude : Nat) : Double :=
  ⟨UInt64.ofNat (if negative then signBit + magnitude else magnitude)⟩

def isNegative (d : Double) : Bool := signBit ≤ d.bits.toNat

def magnitude (d : Double) : Nat := d.bits.toNat % signBit

def isNaN (d : Double) : Bool := infinite < d.magnitude

def isFinite (d : Double) : Bool := d.magnitude < infinite

/-- The quiet NaN with the given sign. -/
def nan (negative : Bool) : Double := ofSign negative quiet

/-- The place of the number in the order; both zeros have place `0`. -/
def key (d : Double) : Int := if d.isNegative then -(d.magnitude : Int) else d.magnitude

/-- The order of two numbers; none when one of them is NaN. -/
def compare? (a b : Double) : Option Ordering :=
  if a.isNaN || b.isNaN then none else some (compare a.key b.key)

/-- Equality as numbers: both zeros are equal and NaN is unequal to itself. -/
def same (a b : Double) : Bool := a.compare? b == some .eq

/-! ## Finite magnitudes as whole numbers of units -/

/-- The power of two that a unit is divided by. -/
def unitExponent : Nat := 1074

/-- How many units of 2^-1074 a finite magnitude has. -/
def units (magnitude : Nat) : Nat :=
  let exponent := magnitude / fractions
  let fraction := magnitude % fractions
  if exponent = 0 then fraction else (fractions + fraction) * Nat.pow 2 (exponent - 1)

/-! ## Rounding -/

/-- The quotient rounded to a whole number, a tie to the even one. -/
def roundEven (num den : Nat) : Nat :=
  let q := num / den
  let twice := 2 * (num % den)
  if twice < den then q
  else if den < twice then q + 1
  else if q % 2 = 0 then q
  else q + 1

/-- The magnitude nearest to `num / den`.  With `shift` zero bits dropped, the whole part of the
quotient in units has at most 53 bits; a magnitude is that shift above the 52 bits of its fraction
plus the rounded rest, also where rounding carries into the next power of two. -/
def nearest (num den : Nat) : Nat :=
  let scaled := num * Nat.pow 2 unitExponent
  let shift := Nat.log2 (scaled / den) - 52
  min infinite (shift * fractions + roundEven scaled (den * Nat.pow 2 shift))

/-- The double nearest to an integer. -/
def ofInt (n : Int) : Double := ofSign (n < 0) (nearest n.natAbs 1)

/-- The magnitude nearest to `digits * 10 ^ exponent`, where `digits` has `count` digits.  Beyond
10^400 all is infinite and below 10^-400 all is zero, so the power of ten stays small. -/
def nearestDecimal (digits count : Nat) (exponent : Int) : Nat :=
  if digits = 0 then 0
  else if 400 < count + exponent then infinite
  else if count + exponent < -400 then 0
  else if 0 ≤ exponent then nearest (digits * Nat.pow 10 exponent.toNat) 1
  else nearest digits (Nat.pow 10 (-exponent).toNat)

/-! ## Small laws -/

theorem compare?_eq_none_iff (a b : Double) :
    a.compare? b = none ↔ a.isNaN = true ∨ b.isNaN = true := by
  by_cases h : a.isNaN = true <;> simp [compare?, h]

theorem isNegative_iff (d : Double) : d.isNegative = true ↔ signBit ≤ d.bits.toNat := by
  simp [isNegative]

end Double

end RowFilter
