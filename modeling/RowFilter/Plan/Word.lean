import RowFilter.Files
import RowFilter.Plan.Fault

/-!
# Plan.Word — fields of a plan

A plan is a sequence of fields with nothing between them.  Numbers have a fixed width and their
lowest byte first; a text is its length in bytes and its UTF-8; an optional field has a mark before
it; a list has its length before it.  Each writer has its reader beside it, and a reader leaves the
bytes behind the field.
-/

namespace RowFilter.Plan

set_option autoImplicit false

/-- Reads a field from the start of the bytes and leaves the rest. -/
abbrev Reader := StateT Bytes (Except Fault)

/-! ## Numbers -/

/-- The lowest `width` bytes of a number. -/
def word : Nat → Nat → Bytes
  | 0, _ => []
  | width + 1, n => UInt8.ofNat n :: word width (n / 256)

def readByte : Reader UInt8 := fun bytes =>
  match bytes with
  | [] => .error .truncated
  | b :: rest => .ok (b, rest)

def readWord : Nat → Reader Nat
  | 0 => pure 0
  | width + 1 => do
    let b ← readByte
    let n ← readWord width
    pure (b.toNat + 256 * n)

/-- The number of an alternative. -/
def variant (n : Nat) : Bytes := word 4 n

/-- Reads which of the alternatives is taken. -/
def readVariant {α : Type} (alternatives : List α) : Reader α := do
  let n ← readWord 4
  match alternatives[n]? with
  | some a => pure a
  | none => throw (.badVariant n alternatives.length)

def boolean (b : Bool) : Bytes := [if b then 1 else 0]

def readBoolean : Reader Bool := do
  let b ← readByte
  if b = 0 then pure false
  else if b = 1 then pure true
  else throw (.badBoolean b.toNat)

/-! ## Texts -/

def text (s : String) : Bytes :=
  let bytes := Text.Utf8.encode s.toList
  word 8 bytes.length ++ bytes

/-- Takes the given number of bytes of a text. -/
def takeBytes (n : Nat) : Reader Bytes := fun bytes =>
  if bytes.length < n then .error .truncatedText else .ok (bytes.take n, bytes.drop n)

def readText : Reader String := do
  let n ← readWord 8
  let bytes ← takeBytes n
  match Text.Utf8.decode bytes with
  | .ok s => pure (String.ofList s)
  | .error fault => throw (.badText fault)

/-! ## Optional fields and lists -/

def optional {α : Type} (write : α → Bytes) : Option α → Bytes
  | none => [0]
  | some a => 1 :: write a

def readOptional {α : Type} (read : Reader α) : Reader (Option α) := do
  let b ← readByte
  if b = 0 then pure none
  else if b = 1 then do
    let a ← read
    pure (some a)
  else throw (.badOption b.toNat)

/-- Reads a field as often as given. -/
def readMany {α : Type} (read : Reader α) : Nat → Reader (List α)
  | 0 => pure []
  | n + 1 => do
    let a ← read
    let more ← readMany read n
    pure (a :: more)

end RowFilter.Plan
