/-!
# Text.Blank — blank characters, trimming, and letters of either case

Fields, numerals, names of types and names of operators are all read after their blank ends
are cut off.  A character is blank when it has the Unicode property `White_Space`; those are the
25 code points below.  Letter case is folded for the letters `A` to `Z` alone.
-/

namespace RowFilter.Text

set_option autoImplicit false

/-- The Unicode property `White_Space`. -/
def isBlank (c : Char) : Bool :=
  let n := c.toNat
  (9 ≤ n && n ≤ 13) || n == 0x20 || n == 0x85 || n == 0xA0 || n == 0x1680 ||
    (0x2000 ≤ n && n ≤ 0x200A) || n == 0x2028 || n == 0x2029 || n == 0x202F || n == 0x205F ||
    n == 0x3000

/-- The text from its first character that is not blank. -/
def trimStart (s : List Char) : List Char := s.dropWhile isBlank

/-- The text up to its last character that is not blank. -/
def trimEnd (s : List Char) : List Char := (s.reverse.dropWhile isBlank).reverse

/-- The text without the blanks at either end. -/
def trim (s : List Char) : List Char := trimEnd (trimStart s)

/-- Letters `A` to `Z` in their small form, every other character as it is. -/
def lower (s : List Char) : List Char := s.map Char.toLower

/-- The same text, letters `A` to `Z` counting as their small forms. -/
def sameLetters (s t : List Char) : Bool := lower s == lower t

theorem trimEnd_append_singleton (s : List Char) {c : Char} (h : isBlank c = false) :
    trimEnd (s ++ [c]) = s ++ [c] := by
  simp [trimEnd, h]

theorem trimStart_cons {c : Char} (s : List Char) (h : isBlank c = false) :
    trimStart (c :: s) = c :: s := by
  simp [trimStart, h]

end RowFilter.Text
