/-!
# Text.Utf8 — characters as bytes

`encode` writes a text as UTF-8.  `decode` reads it back and, where the bytes are no UTF-8, says
where the first faulty sequence starts and how many of its bytes belong together: the longest
start of a well-formed sequence, or that the bytes end inside one.  A sequence is well formed when
it is the shortest for its code point and the code point is no surrogate; the range allowed for
the second byte carries both conditions.
-/

namespace RowFilter.Text.Utf8

set_option autoImplicit false

/-! ## Writing -/

def byte (n : Nat) : UInt8 := UInt8.ofNat n

def encodeChar (c : Char) : List UInt8 :=
  let n := c.toNat
  if n < 0x80 then [byte n]
  else if n < 0x800 then [byte (0xC0 + n / 64), byte (0x80 + n % 64)]
  else if n < 0x10000 then
    [byte (0xE0 + n / 4096), byte (0x80 + n / 64 % 64), byte (0x80 + n % 64)]
  else
    [byte (0xF0 + n / 262144), byte (0x80 + n / 4096 % 64), byte (0x80 + n / 64 % 64),
      byte (0x80 + n % 64)]

def encode (s : List Char) : List UInt8 := s.flatMap encodeChar

/-! ## Reading -/

/-- The first place where bytes are no UTF-8. -/
inductive Fault where
  /-- `length` bytes from `offset` belong together and no character continues them. -/
  | invalid (length offset : Nat)
  /-- The bytes end inside the sequence that starts at `offset`. -/
  | incomplete (offset : Nat)
  deriving DecidableEq, Repr

namespace Fault

def message : Fault → String
  | invalid length offset =>
    "invalid utf-8 sequence of " ++ toString length ++ " bytes from index " ++ toString offset
  | incomplete offset => "incomplete utf-8 byte sequence from index " ++ toString offset

end Fault

/-- What the first byte of a sequence says of the rest: how many bytes the sequence has, and the
range of the second. -/
inductive Lead where
  | single
  | two
  | three (lower upper : Nat)
  | four (lower upper : Nat)
  | stray
  deriving DecidableEq, Repr

def lead (n : Nat) : Lead :=
  if n < 0x80 then .single
  else if n < 0xC2 then .stray
  else if n < 0xE0 then .two
  else if n = 0xE0 then .three 0xA0 0xBF
  else if n = 0xED then .three 0x80 0x9F
  else if n < 0xF0 then .three 0x80 0xBF
  else if n = 0xF0 then .four 0x90 0xBF
  else if n < 0xF4 then .four 0x80 0xBF
  else if n = 0xF4 then .four 0x80 0x8F
  else .stray

def within (lower upper : Nat) (b : UInt8) : Bool := lower ≤ b.toNat && b.toNat ≤ upper

def isContinuation (b : UInt8) : Bool := within 0x80 0xBF b

/-- The low six bits of a continuation byte. -/
def tail (b : UInt8) : Nat := b.toNat % 64

/-- Reads the bytes from `offset` on. -/
def decodeFrom (offset : Nat) : List UInt8 → Except Fault (List Char)
  | [] => .ok []
  | a :: rest =>
    match lead a.toNat, rest with
    | .stray, _ => .error (.invalid 1 offset)
    | .single, rest => (decodeFrom (offset + 1) rest).map (Char.ofNat a.toNat :: ·)
    | .two, [] => .error (.incomplete offset)
    | .two, b :: rest =>
      if !isContinuation b then .error (.invalid 1 offset)
      else (decodeFrom (offset + 2) rest).map (Char.ofNat (a.toNat % 32 * 64 + tail b) :: ·)
    | .three _ _, [] => .error (.incomplete offset)
    | .three lower upper, b :: rest =>
      if !within lower upper b then .error (.invalid 1 offset)
      else
        match rest with
        | [] => .error (.incomplete offset)
        | c :: rest =>
          if !isContinuation c then .error (.invalid 2 offset)
          else
            (decodeFrom (offset + 3) rest).map
              (Char.ofNat (a.toNat % 16 * 4096 + tail b * 64 + tail c) :: ·)
    | .four _ _, [] => .error (.incomplete offset)
    | .four lower upper, b :: rest =>
      if !within lower upper b then .error (.invalid 1 offset)
      else
        match rest with
        | [] => .error (.incomplete offset)
        | c :: rest =>
          if !isContinuation c then .error (.invalid 2 offset)
          else
            match rest with
            | [] => .error (.incomplete offset)
            | d :: rest =>
              if !isContinuation d then .error (.invalid 3 offset)
              else
                (decodeFrom (offset + 4) rest).map
                  (Char.ofNat
                    (a.toNat % 8 * 262144 + tail b * 4096 + tail c * 64 + tail d) :: ·)

def decode (bytes : List UInt8) : Except Fault (List Char) := decodeFrom 0 bytes

end RowFilter.Text.Utf8
