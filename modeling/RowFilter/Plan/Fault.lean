import RowFilter.Number.Decimal
import RowFilter.Text.Utf8

/-!
# Plan.Fault — why bytes are no plan

Decoding stops at the first field that is cut short or holds what its kind does not allow.
-/

namespace RowFilter.Plan

set_option autoImplicit false

inductive Fault where
  /-- The bytes end inside a field of fixed width. -/
  | truncated
  /-- The bytes end before a text of the announced length. -/
  | truncatedText
  /-- A choice between `count` alternatives is numbered `found`. -/
  | badVariant (found count : Nat)
  | badBoolean (found : Nat)
  /-- The mark for an optional field is neither absent nor present. -/
  | badOption (found : Nat)
  | badText (fault : Text.Utf8.Fault)
  | badDecimal (fault : Decimal.Fault)
  /-- A count of milliseconds is no instant. -/
  | badInstant (millis : Int)
  deriving DecidableEq, Repr

namespace Fault

def message : Fault → String
  | truncated => "io error: unexpected end of file"
  | truncatedText => "io error: "
  | badVariant found count =>
    "invalid value: integer \x60" ++ toString found ++ "\x60, expected variant index 0 <= i < " ++
      toString count
  | badBoolean found => "invalid u8 while decoding bool, expected 0 or 1, found " ++ toString found
  | badOption found => "tag for enum is not valid, found " ++ toString found
  | badText fault => "string is not valid utf8: " ++ fault.message
  | badDecimal fault => fault.message
  | badInstant millis => "value is not a legal timestamp: " ++ String.ofList (Text.integer millis)

end Fault

end RowFilter.Plan
