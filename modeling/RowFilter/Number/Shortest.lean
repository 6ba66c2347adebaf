import RowFilter.Number.Double
import RowFilter.Text.Numeral

/-!
# Number.Shortest — the fewest digits that read back

`shortest` gives a finite magnitude other than zero as `digits * 10 ^ exponent` with the fewest
digits for which rounding gives the same magnitude back.  For each number of digits the two
neighbours of the magnitude on that decimal grid are tried; where both read back the nearer is
taken, and the upper of two equally near.  Seventeen digits are enough for every magnitude, so the
exact expansion behind the search is there to make the function total.  `text` writes a double in
positional notation, without an exponent and without a point behind a whole number.
-/

namespace RowFilter.Double

set_option autoImplicit false

open RowFilter.Text

/-- A power of ten that lifts every finite magnitude but zero well above its digits. -/
def lift : Nat := 400

/-- The magnitude times `10 ^ lift`, in units. -/
def lifted (magnitude : Nat) : Nat := units magnitude * Nat.pow 10 lift

/-- Whether `digits * 10 ^ exponent` rounds to the magnitude. -/
def readsBack (magnitude digits : Nat) (exponent : Int) : Bool :=
  nearestDecimal digits (digitCount digits) exponent == magnitude

/-- The best decimal of `count` digits that rounds to the magnitude, if there is one, given the
lifted magnitude and how many digits it has before the point. -/
def decimalOf? (magnitude scaled places count : Nat) : Option (Nat × Int) :=
  let dropped := places - count
  let lower := scaled / Nat.pow 2 unitExponent / Nat.pow 10 dropped
  let exponent : Int := dropped - lift
  let upper : Nat × Int :=
    if lower + 1 = Nat.pow 10 count then (1, exponent + count) else (lower + 1, exponent)
  let lowerReads := readsBack magnitude lower exponent
  let upperReads := readsBack magnitude upper.1 upper.2
  if lowerReads && upperReads then
    if 2 * scaled < (2 * lower + 1) * Nat.pow 10 dropped * Nat.pow 2 unitExponent then
      some (lower, exponent)
    else some upper
  else if lowerReads then some (lower, exponent)
  else if upperReads then some upper
  else none

/-- The magnitude as an exact decimal. -/
def exactDecimal (magnitude : Nat) : Nat × Int :=
  (units magnitude * Nat.pow 5 unitExponent, -(unitExponent : Int))

/-- Digits and power of ten of a finite magnitude. -/
def shortest (magnitude : Nat) : Nat × Int :=
  if magnitude = 0 then (0, 0)
  else
    let scaled := lifted magnitude
    let places := digitCount (scaled / Nat.pow 2 unitExponent)
    let found := (List.range 17).findSome? (fun n => decimalOf? magnitude scaled places (n + 1))
    found.getD (exactDecimal magnitude)

/-- The text of a magnitude. -/
def magnitudeText (magnitude : Nat) : List Char :=
  let (n, exponent) := shortest magnitude
  withPoint (digits n) (-exponent)

/-- The text of a double. -/
def text (d : Double) : List Char :=
  if d.isNaN then ['N', 'a', 'N']
  else
    let unsigned := if d.isFinite then magnitudeText d.magnitude else ['i', 'n', 'f']
    if d.isNegative then '-' :: unsigned else unsigned

end RowFilter.Double
