import RowFilter.Command.Problem
import RowFilter.Filter
import RowFilter.Text.Utf8

/-!
# Command.Scan — filtering the lines of an input

A line ends at a newline, and a carriage return before the newline is no part of it.  A line of
blanks is passed over, and so is the first line where a header is to be skipped.  All other lines are
rows; those that the filter keeps are given out in their order until a line is at fault.
-/

namespace RowFilter.Command

set_option autoImplicit false

/-- The lines of an input.  Bytes after the last newline are a line too, if there are any. -/
def inputLines : Bytes → List Bytes
  | [] => []
  | 13 :: 10 :: rest => [] :: inputLines rest
  | 10 :: rest => [] :: inputLines rest
  | b :: rest =>
    match inputLines rest with
    | [] => [[b]]
    | line :: more => (b :: line) :: more

/-- What is fixed throughout a scan. -/
structure Scanner where
  schema : Schema
  filter : Filter
  delimiter : Char
  skipHeader : Bool

/-- The course of a scan: the lines kept, how many lines were considered, and the problem that ended
it, if one did. -/
structure Scan where
  kept : List (List Char)
  considered : Nat
  problem : Option Problem

namespace Scanner

/-- Whether the line with the number is passed over. -/
def passes (scanner : Scanner) (number : Nat) (line : List Char) : Bool :=
  (scanner.skipHeader && number == 1) || (Text.trim line).isEmpty

/-- Whether the row of the line is kept. -/
def keeps (scanner : Scanner) (line : List Char) : Except Fault Bool :=
  match Row.read line scanner.delimiter scanner.schema with
  | .error fault => .error (.malformedRow fault)
  | .ok row => scanner.filter.keeps row

/-- Scans lines, the first of which has the number. -/
def scanFrom (scanner : Scanner) (number : Nat) : List Bytes → Scan
  | [] => ⟨[], 0, none⟩
  | bytes :: more =>
    match Text.Utf8.decode bytes with
    | .error _ => ⟨[], 0, some .notText⟩
    | .ok line =>
      if scanner.passes number line then scanFrom scanner (number + 1) more
      else
        match scanner.keeps line with
        | .error fault => ⟨[], 0, some (.line number fault)⟩
        | .ok kept =>
          let rest := scanFrom scanner (number + 1) more
          ⟨if kept then line :: rest.kept else rest.kept, rest.considered + 1, rest.problem⟩

def scan (scanner : Scanner) (input : Bytes) : Scan := scanner.scanFrom 1 (inputLines input)

end Scanner

end RowFilter.Command
