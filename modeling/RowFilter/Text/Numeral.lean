/-!
# Text.Numeral — decimal numerals of bounded integers

`digits` writes a natural number and `integer` an integer.  `readInteger lower upper` reads an
optional sign and at least one digit, and refuses what is outside the two bounds.  The reader
goes from left to right and stops at the first fault: a numeral that leaves the bounds before a
stray character is out of bounds, one that meets the stray character first is no numeral.
-/

namespace RowFilter.Text

set_option autoImplicit false

/-- Why a text is not an integer of the wanted range. -/
inductive NumeralFault where
  | empty
  | invalidDigit
  | tooLarge
  | tooSmall
  deriving DecidableEq, Repr

namespace NumeralFault

def message : NumeralFault → String
  | empty => "cannot parse integer from empty string"
  | invalidDigit => "invalid digit found in string"
  | tooLarge => "number too large to fit in target type"
  | tooSmall => "number too small to fit in target type"

end NumeralFault

/-! ## Digits -/

/-- The value of a decimal digit. -/
def digitValue? (c : Char) : Option Nat :=
  if c.isDigit then some (c.toNat - 48) else none

/-- The number that a word of digits denotes after the digits already read into `n`. -/
def valueFrom (n : Nat) (s : List Char) : Nat :=
  s.foldl (fun n c => 10 * n + (c.toNat - 48)) n

/-- The number that a word of digits denotes. -/
def value (s : List Char) : Nat := valueFrom 0 s

/-- The decimal digits of a number, `0` for zero. -/
def digits (n : Nat) : List Char := Nat.toDigits 10 n

/-- The decimal numeral of an integer, with a minus sign when it is negative. -/
def integer (n : Int) : List Char :=
  if n < 0 then '-' :: digits n.natAbs else digits n.natAbs

/-- The numeral of `n`, filled up with zeros on the left to `width` digits. -/
def padded (width n : Nat) : List Char :=
  List.replicate (width - (digits n).length) '0' ++ digits n

/-- How many digits the numeral of `n` has; none for zero. -/
def digitCount (n : Nat) : Nat := if n = 0 then 0 else (digits n).length

/-- A word of digits as a number with `places` digits after the point: zeros fill up the word on
the left to leave one digit before the point, or on the right where `places` is negative. -/
def withPoint (s : List Char) (places : Int) : List Char :=
  if places ≤ 0 then s ++ List.replicate (-places).toNat '0'
  else
    let padding := List.replicate (places.toNat + 1 - s.length) '0'
    let word := padding ++ s
    let whole := word.length - places.toNat
    word.take whole ++ '.' :: word.drop whole

/-- The digits at the start of a text, and the text after them. -/
def spanDigits (s : List Char) : List Char × List Char :=
  (s.takeWhile Char.isDigit, s.dropWhile Char.isDigit)

/-! ## Reading within bounds -/

/-- Reads digits on top of `n`, with `fault` once the number exceeds `most`. -/
def readMagnitude (most : Nat) (fault : NumeralFault) : Nat → List Char → Except NumeralFault Nat
  | n, [] => .ok n
  | n, c :: rest =>
    match digitValue? c with
    | none => .error .invalidDigit
    | some d => if 10 * n + d ≤ most then readMagnitude most fault (10 * n + d) rest else .error fault

/-- At least one digit, and nothing else. -/
def readUnsigned (most : Nat) (fault : NumeralFault) (s : List Char) : Except NumeralFault Nat :=
  if s.isEmpty then .error .invalidDigit else readMagnitude most fault 0 s

/-- An optional sign and digits that denote an integer from `lower` to `upper`.  A minus sign is
read only where the range has negative numbers; elsewhere it is a stray character. -/
def readInteger (lower upper : Int) : List Char → Except NumeralFault Int
  | [] => .error .empty
  | '+' :: rest => (readUnsigned upper.toNat .tooLarge rest).map (fun n => (n : Int))
  | '-' :: rest =>
    if lower < 0 then (readUnsigned (-lower).toNat .tooSmall rest).map (fun n => -(n : Int))
    else .error .invalidDigit
  | s => (readUnsigned upper.toNat .tooLarge s).map (fun n => (n : Int))

/-- Reads an integer of a word of `bits` bits, one of which is the sign. -/
def readSized (bits : Nat) (s : List Char) : Except NumeralFault Int :=
  let half : Int := Nat.pow 2 (bits - 1)
  readInteger (-half) (half - 1) s

/-! ## Bounds -/

theorem readMagnitude_le {most : Nat} {fault : NumeralFault} :
    ∀ {s : List Char} {n m : Nat}, n ≤ most → readMagnitude most fault n s = .ok m → m ≤ most
  | [], n, m, h, e => by
    simp only [readMagnitude, Except.ok.injEq] at e
    omega
  | c :: rest, n, m, _, e => by
    simp only [readMagnitude] at e
    split at e
    · cases e
    · split at e
      · exact readMagnitude_le (by assumption) e
      · cases e

theorem readUnsigned_le {most : Nat} {fault : NumeralFault} {s : List Char} {m : Nat}
    (e : readUnsigned most fault s = .ok m) : m ≤ most := by
  simp only [readUnsigned] at e
  split at e
  · cases e
  · exact readMagnitude_le (Nat.zero_le _) e

end RowFilter.Text
