import RowFilter.Time.Instant
import RowFilter.Text.Blank
import RowFilter.Text.Numeral

/-!
# Time.Reader — instants from text

Three forms are tried in turn: the internet date and time `2024-03-01T12:30:00.5+01:00` with fields
of fixed width, the looser `2024-03-01 12:30:00`, and a bare date, which stands for its midnight.
The last two are in universal time; their numbers may be shorter, may follow blanks, and a year with
a sign may have any number of digits.
-/

namespace RowFilter.Time

set_option autoImplicit false

open RowFilter.Text

/-! ## Pieces -/

/-- Takes exactly `width` digits. -/
def takeFixed (width : Nat) (s : List Char) : Option (Nat × List Char) :=
  let word := s.take width
  if word.length = width && word.all Char.isDigit then some (value word, s.drop width) else none

/-- Takes at least one digit and at most `width`. -/
def takeShort (width : Nat) (s : List Char) : Option (Nat × List Char) :=
  let word := (s.take width).takeWhile Char.isDigit
  if word.isEmpty then none else some (value word, s.drop word.length)

/-- Takes all digits, of which there must be one. -/
def takeLong (s : List Char) : Option (Nat × List Char) :=
  let (word, rest) := spanDigits s
  if word.isEmpty then none else some (value word, rest)

/-- Takes one character. -/
def takeChar (c : Char) : List Char → Option (List Char)
  | d :: rest => if c = d then some rest else none
  | [] => none

/-! ## Internet date and time -/

/-- The nanoseconds that the digits behind the point of a second denote; those past the ninth count
for nothing. -/
def fractionOf (word : List Char) : Nat :=
  let kept := word.take 9
  value kept * Nat.pow 10 (9 - kept.length)

/-- An optional fraction of a second. -/
def takeFraction : List Char → Option (Nat × List Char)
  | '.' :: s =>
    let (word, rest) := spanDigits s
    if word.isEmpty then none else some (fractionOf word, rest)
  | s => some (0, s)

/-- Hours and minutes of an offset, in seconds. -/
def readOffsetSize (s : List Char) : Option Int := do
  let (hours, s) ← takeFixed 2 s
  let s ← takeChar ':' s
  let (minutes, s) ← takeFixed 2 s
  if s.isEmpty && hours < 24 && minutes < 60 then some (hours * 3600 + minutes * 60) else none

/-- The offset at the end of the text: `Z`, or a sign with hours and minutes.  The minus sign may be
the mathematical one. -/
def readOffset? : List Char → Option Int
  | [c] => if c == 'Z' || c == 'z' then some 0 else none
  | '+' :: s => readOffsetSize s
  | '-' :: s => (readOffsetSize s).map (fun n => -n)
  | '\u2212' :: s => (readOffsetSize s).map (fun n => -n)
  | _ => none

/-- Whether the character may stand between date and time. -/
def isDateTimeMark (c : Char) : Bool := c == 'T' || c == 't' || c == ' '

/-- Takes the mark between date and time. -/
def takeMark : List Char → Option (List Char)
  | c :: rest => if isDateTimeMark c then some rest else none
  | [] => none

def readInternet? (s : List Char) : Option Instant := do
  let (year, s) ← takeFixed 4 s
  let s ← takeChar '-' s
  let (month, s) ← takeFixed 2 s
  let s ← takeChar '-' s
  let (day, s) ← takeFixed 2 s
  let s ← takeMark s
  let (hour, s) ← takeFixed 2 s
  let s ← takeChar ':' s
  let (minute, s) ← takeFixed 2 s
  let s ← takeChar ':' s
  let (sec, s) ← takeFixed 2 s
  let (nano, s) ← takeFraction s
  let offset ← readOffset? s
  Instant.ofCivil? ⟨year, month, day⟩ hour minute sec nano offset

/-! ## Plain date and time -/

/-- A year: up to four digits, or a sign and any number of digits. -/
def takeYear (s : List Char) : Option (Int × List Char) :=
  match trimStart s with
  | '-' :: s => (takeLong s).map (fun (n, rest) => (-(n : Int), rest))
  | '+' :: s => (takeLong s).map (fun (n, rest) => ((n : Int), rest))
  | s => (takeShort 4 s).map (fun (n, rest) => ((n : Int), rest))

/-- A field of one or two digits, with blanks before it. -/
def takeField (s : List Char) : Option (Nat × List Char) := takeShort 2 (trimStart s)

/-- Year, month and day with hyphens between them. -/
def takeDate (s : List Char) : Option (Date × List Char) := do
  let (year, s) ← takeYear s
  let s ← takeChar '-' s
  let (month, s) ← takeField s
  let s ← takeChar '-' s
  let (day, s) ← takeField s
  some (⟨year, month, day⟩, s)

def readPlain? (s : List Char) : Option Instant := do
  let (date, s) ← takeDate s
  let (hour, s) ← takeField s
  let s ← takeChar ':' s
  let (minute, s) ← takeField s
  let s ← takeChar ':' s
  let (sec, s) ← takeField s
  if s.isEmpty then Instant.ofCivil? date hour minute sec 0 0 else none

def readDate? (s : List Char) : Option Instant := do
  let (date, s) ← takeDate s
  if s.isEmpty then Instant.ofCivil? date 0 0 0 0 0 else none

namespace Instant

/-- Reads an instant in one of the three forms. -/
def read? (s : List Char) : Option Instant :=
  (readInternet? s).or ((readPlain? s).or (readDate? s))

end Instant

end RowFilter.Time
