import RowFilter.Number.Double
import RowFilter.Text.Blank
import RowFilter.Text.Numeral

/-!
# Number.Reader — doubles from text

An optional sign, then digits with an optional point among, before or after them and an optional
exponent, or one of the words `inf`, `infinity` and `nan` in letters of either case.  At least one
digit is needed beside the point, and one in the exponent.  The number is rounded once, from its
exact decimal value, so `read` agrees with `nearest` whatever the length of the text.
-/

namespace RowFilter.Double

set_option autoImplicit false

open RowFilter.Text

/-- The sign and digits of an exponent. -/
def readExponent? (s : List Char) : Option Int :=
  let unsigned (t : List Char) : Option Nat :=
    if !t.isEmpty && t.all Char.isDigit then some (value t) else none
  match s with
  | '-' :: t => (unsigned t).map (fun n => -(n : Int))
  | '+' :: t => (unsigned t).map (fun n => (n : Int))
  | t => (unsigned t).map (fun n => (n : Int))

/-- The magnitude nearest to a word of digits times a power of ten. -/
def nearestWord (word : List Char) (exponent : Int) : Nat :=
  nearestDecimal (value word) (word.dropWhile (· == '0')).length exponent

/-- Digits with an optional point and an optional exponent. -/
def readDecimal? (s : List Char) : Option Nat :=
  let (whole, afterWhole) := spanDigits s
  let (fraction, rest) :=
    match afterWhole with
    | '.' :: t => spanDigits t
    | t => ([], t)
  if whole.isEmpty && fraction.isEmpty then none
  else
    match rest with
    | [] => some (nearestWord (whole ++ fraction) (-(fraction.length : Int)))
    | c :: t =>
      if c == 'e' || c == 'E' then
        (readExponent? t).map
          (fun exponent => nearestWord (whole ++ fraction) (exponent - fraction.length))
      else none

/-- The words for what is no finite number. -/
def readWord? (s : List Char) : Option Nat :=
  let word := Text.lower s
  if word == ['i', 'n', 'f'] || word == ['i', 'n', 'f', 'i', 'n', 'i', 't', 'y'] then some infinite
  else if word == ['n', 'a', 'n'] then some (nan false).magnitude
  else none

def readMagnitude? (s : List Char) : Option Nat := (readDecimal? s).or (readWord? s)

/-- Reads a double; none when the text is not one. -/
def read? : List Char → Option Double
  | '-' :: s => (readMagnitude? s).map (ofSign true)
  | '+' :: s => (readMagnitude? s).map (ofSign false)
  | s => (readMagnitude? s).map (ofSign false)

end RowFilter.Double
