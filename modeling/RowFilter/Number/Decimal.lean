import RowFilter.Number.Shortest
import RowFilter.Text.Numeral

/-!
# Number.Decimal — decimal numbers of any length

A decimal is an integer of digits and a scale: `⟨n, s⟩` stands for `n * 10 ^ (-s)`.  The scale is
kept, so `0.30` and `0.3` are different decimals; `compare` orders them by the numbers they stand
for, and `same` makes these two equal.  Comparing never writes out a power of ten larger than the
numbers themselves have digits: signs decide first, then the place of the leading digit, and only
then are the digits lined up.
-/

namespace RowFilter

set_option autoImplicit false

open RowFilter.Text

/-- The number `digits * 10 ^ (-scale)`. -/
structure Decimal where
  digits : Int
  scale : Int64
  deriving DecidableEq, Repr

namespace Decimal

def ofInt (n : Int) : Decimal := ⟨n, 0⟩

/-! ## Order -/

/-- The order of `m * 10 ^ (-s)` and `n * 10 ^ (-t)`, for `m` and `n` other than zero. -/
def compareMagnitude (m : Nat) (s : Int) (n : Nat) (t : Int) : Ordering :=
  match compare ((digitCount m : Int) - s) ((digitCount n : Int) - t) with
  | .eq => compare (m * Nat.pow 10 (t - s).toNat) (n * Nat.pow 10 (s - t).toNat)
  | o => o

/-- The order of the numbers that two decimals stand for. -/
def compare (a b : Decimal) : Ordering :=
  match Ord.compare a.digits.sign b.digits.sign with
  | .eq =>
    if a.digits = 0 then .eq
    else if 0 < a.digits then
      compareMagnitude a.digits.natAbs a.scale.toInt b.digits.natAbs b.scale.toInt
    else compareMagnitude b.digits.natAbs b.scale.toInt a.digits.natAbs a.scale.toInt
  | o => o

/-- Equality of the numbers that two decimals stand for. -/
def same (a b : Decimal) : Bool := a.compare b == .eq

/-! ## Text -/

/-- Up to this many zeros stand between the point and the first digit. -/
def leadingZeros : Int := 5

/-- Up to this many zeros are appended to the digits. -/
def appendedZeros : Int := 15

/-- The digits with a point after the first. -/
def pointAfterFirst : List Char → List Char
  | [] => []
  | [c] => [c]
  | c :: rest => c :: '.' :: rest

/-- The text of `n * 10 ^ (-scale)` for `n` other than zero: positional while it needs few zeros, and
otherwise with an exponent, `1.23E-7` for a small number and `123e+16` for a large one. -/
def magnitudeText (n : Nat) (scale : Int) : List Char :=
  let word := Text.digits n
  if leadingZeros < scale - word.length then
    pointAfterFirst word ++ 'E' :: integer (word.length - 1 - scale)
  else if appendedZeros < -scale then word ++ 'e' :: '+' :: integer (-scale)
  else withPoint word scale

def text (d : Decimal) : List Char :=
  if d.digits = 0 then ['0']
  else if d.digits < 0 then '-' :: magnitudeText d.digits.natAbs d.scale.toInt
  else magnitudeText d.digits.natAbs d.scale.toInt

/-! ## Reading -/

/-- Why a text is no decimal. -/
inductive Fault where
  /-- There is nothing before the exponent. -/
  | empty
  /-- The digits or the exponent are no integer. -/
  | numeral (fault : NumeralFault)
  /-- The scale of the text does not fit its 64 bits. -/
  | exponentOverflow (text : String)
  deriving DecidableEq, Repr

namespace Fault

def message : Fault → String
  | empty => "Failed to parse empty string"
  | numeral fault => fault.message
  | exponentOverflow text => "Exponent overflow when parsing '" ++ text ++ "'"

end Fault

/-- A word of digits that underscores may divide; it starts with a digit. -/
def readGrouped : List Char → Except NumeralFault Nat
  | [] => .error .empty
  | '_' :: _ => .error .invalidDigit
  | s =>
    if s.all (fun c => c.isDigit || c == '_') then .ok (value (s.filter Char.isDigit))
    else .error .invalidDigit

/-- Digits after an optional plus sign. -/
def readNatural : List Char → Except NumeralFault Nat
  | '+' :: s => readGrouped s
  | s => readGrouped s

/-- Digits after an optional sign.  A sign may not follow a sign. -/
def readSigned : List Char → Except NumeralFault Int
  | '-' :: s => (readGrouped s).map (fun n => -(n : Int))
  | s => (readNatural s).map (fun n => (n : Int))

/-- The base of a decimal without its point, and how many digits stand behind the point.  A point in
last place counts for nothing. -/
def splitPoint (base : List Char) : List Char × Nat :=
  let lead := base.takeWhile (· != '.')
  match base.drop lead.length with
  | [] => (base, 0)
  | _ :: trail => (lead ++ trail, (trail.filter (· != '_')).length)

/-- The part of a text before its first `e` or `E`, and the exponent after it if there is one. -/
def splitExponent (s : List Char) : Except NumeralFault (List Char × Int) :=
  let base := s.takeWhile (fun c => c != 'e' && c != 'E')
  match s.drop base.length with
  | [] => .ok (base, 0)
  | _ :: exponent => (readSized 128 exponent).map (fun e => (base, e))

/-- Reads a decimal: an optional sign, digits with at most one point and underscores between them,
and an optional exponent.  The scale counts the digits behind the point, less the exponent. -/
def read (s : List Char) : Except Fault Decimal :=
  match splitExponent s with
  | .error fault => .error (.numeral fault)
  | .ok (base, exponent) =>
    if base.isEmpty then .error .empty
    else
      let (word, places) := splitPoint base
      let scale := (places : Int) - exponent
      if scale < Int64.minValue.toInt || Int64.maxValue.toInt < scale then .error (.exponentOverflow (String.ofList s))
      else
        match readSigned word with
        | .error fault => .error (.numeral fault)
        | .ok n => .ok ⟨n, Int64.ofInt scale⟩

/-! ## Doubles -/

/-- The shortest decimal of a finite double; a double that is not finite has none. -/
def ofDouble? (d : Double) : Option Decimal :=
  if d.isFinite then
    let (n, exponent) := Double.shortest d.magnitude
    let signed : Int := if d.isNegative then -(n : Int) else n
    if 0 ≤ exponent then some ⟨signed * (Nat.pow 10 exponent.toNat : Nat), 0⟩
    else some ⟨signed, Int64.ofInt (-exponent)⟩
  else none

end Decimal

end RowFilter
