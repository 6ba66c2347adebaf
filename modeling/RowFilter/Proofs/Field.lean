import RowFilter.Plan.Word
import RowFilter.Proofs.Utf8
import Mathlib.Data.List.Basic

/-!
# Proofs.Field — fields of a plan read back

`Reads read bytes x` says that a reader takes exactly the bytes and gives the outcome, whatever
bytes stand behind them.  It goes through binds on both sides, so a reader of many fields is followed
field by field, also to a fault.  Each writer of `Plan.Word` is read back by its reader.
-/

namespace RowFilter.Plan

set_option autoImplicit false

/-- Before any other bytes the reader takes these, with the outcome. -/
def Reads {α : Type} (read : Reader α) (bytes : Bytes) (x : Except Fault α) : Prop :=
  ∀ rest, read (bytes ++ rest) = x.map (·, rest)

section Reads

variable {α β : Type} {read : Reader α} {bytes more : Bytes}

theorem reads_pure (a : α) : Reads (pure a) [] (.ok a) := fun _ => rfl

theorem reads_throw (fault : Fault) : Reads (throw fault : Reader α) [] (.error fault) :=
  fun _ => rfl

/-- The bytes are read in one way. -/
theorem Reads.unique {a b : α} (h : Reads read bytes (.ok a)) (h' : Reads read bytes (.ok b)) :
    a = b := by
  have same := (h []).symm.trans (h' [])
  cases same
  rfl

theorem Reads.bind {x : Except Fault α} {f : α → Reader β} {g : α → Except Fault β}
    (h : Reads read bytes x) (next : ∀ a, x = .ok a → Reads (f a) more (g a)) :
    Reads (read >>= f) (bytes ++ more) (x >>= g) := by
  intro rest
  have first := h (more ++ rest)
  rw [← List.append_assoc] at first
  show (read (bytes ++ more ++ rest) >>= fun given => f given.1 given.2) = _
  rw [first]
  cases x with
  | error fault => rfl
  | ok a => exact next a rfl rest

/-- A field that is read as its value, and the fields after it. -/
theorem Reads.next {a : α} {f : α → Reader β} {x : Except Fault β} (h : Reads read bytes (.ok a))
    (next : Reads (f a) more x) : Reads (read >>= f) (bytes ++ more) x :=
  Reads.bind (g := fun _ => x) h fun _ same => by cases same; exact next

/-- A field after which no bytes are needed. -/
theorem Reads.final {a : α} {f : α → Reader β} {x : Except Fault β} (h : Reads read bytes (.ok a))
    (next : Reads (f a) [] x) : Reads (read >>= f) bytes x := by
  rw [← List.append_nil bytes]
  exact h.next next

/-- A field that may be at fault, and the fields after it. -/
theorem Reads.before {x : Except Fault α} {f : α → Reader β} {make : α → β} (h : Reads read bytes x)
    (next : ∀ a, Reads (f a) more (.ok (make a))) :
    Reads (read >>= f) (bytes ++ more) (x.map make) := by
  have whole := h.bind fun a _ => next a
  cases x <;> exact whole

/-- A last field, and what is made of it. -/
theorem Reads.last {x : Except Fault α} (h : Reads read bytes x) (f : α → β) :
    Reads (read >>= fun a => pure (f a)) bytes (x.map f) := by
  have whole := h.bind fun a _ => reads_pure (f a)
  rw [List.append_nil] at whole
  cases x <;> exact whole

end Reads

/-! ## Numbers -/

theorem reads_byte (b : UInt8) : Reads readByte [b] (.ok b) := fun _ => rfl

theorem length_word (width n : Nat) : (word width n).length = width := by
  induction width generalizing n with
  | zero => rfl
  | succ width ih => rw [word, List.length_cons, ih]

theorem reads_word {width n : Nat} (lt : n < Nat.pow 256 width) :
    Reads (readWord width) (word width n) (.ok n) := by
  induction width generalizing n with
  | zero =>
      have zero : n = 0 := Nat.lt_one_iff.mp lt
      subst zero
      exact reads_pure 0
  | succ width ih =>
      have smaller : n / 256 < Nat.pow 256 width := Nat.div_lt_of_lt_mul (by
        rwa [Nat.mul_comm])
      have low : (UInt8.ofNat n).toNat + 256 * (n / 256) = n := by
        rw [UInt8.toNat_ofNat']
        omega
      have rest := (ih smaller).last fun m => (UInt8.ofNat n).toNat + 256 * m
      rw [Except.map, low] at rest
      exact (reads_byte (UInt8.ofNat n)).next rest

/-- An alternative is read back from its number. -/
theorem reads_choice {α : Type} [BEq α] [LawfulBEq α] {alternatives : List α} {a : α}
    (mem : a ∈ alternatives) (few : alternatives.length < Nat.pow 256 4) :
    Reads (readVariant alternatives) (variant (alternatives.idxOf a)) (.ok a) := by
  have small : alternatives.idxOf a < Nat.pow 256 4 :=
    Nat.lt_trans (List.idxOf_lt_length_iff.mpr mem) few
  have found : alternatives[alternatives.idxOf a]? = some a := List.getElem?_idxOf mem
  refine (reads_word small).final ?_
  rw [found]
  exact reads_pure a

theorem reads_boolean (b : Bool) : Reads readBoolean (boolean b) (.ok b) := by
  refine (reads_byte _).final ?_
  cases b <;> exact reads_pure _

/-! ## Texts -/

theorem reads_bytes (bytes : Bytes) : Reads (takeBytes bytes.length) bytes (.ok bytes) := by
  intro rest
  rw [takeBytes, if_neg (by simp), List.take_left, List.drop_left]
  rfl

theorem reads_text {s : String} (lt : (Text.Utf8.encode s.toList).length < Nat.pow 256 8) :
    Reads readText (text s) (.ok s) := by
  refine (reads_word lt).next ((reads_bytes _).final ?_)
  rw [Text.Utf8.decode_encode]
  show Reads (pure (String.ofList s.toList)) [] (.ok s)
  rw [String.ofList_toList]
  exact reads_pure s

/-! ## Optional fields and lists -/

section Compound

variable {α β : Type} {read : Reader α}

theorem reads_optional {write : α → Bytes} {o : Option α}
    (each : ∀ a, o = some a → Reads read (write a) (.ok a)) :
    Reads (readOptional read) (optional write o) (.ok o) := by
  cases o with
  | none =>
      exact (reads_byte 0).final (reads_pure none)
  | some a => exact (reads_byte 1).next ((each a rfl).last some)

/-- A list is read item by item, up to the first fault. -/
theorem reads_many {write : β → Bytes} {outcome : β → Except Fault α} {items : List β}
    (each : ∀ item ∈ items, Reads read (write item) (outcome item)) :
    Reads (readMany read items.length) (items.flatMap write) (items.mapM outcome) := by
  induction items with
  | nil => exact reads_pure []
  | cons item more ih =>
      rw [List.forall_mem_cons] at each
      rw [List.mapM_cons]
      refine each.1.bind ?_
      intro a _
      exact (ih each.2).last (a :: ·)

end Compound

end RowFilter.Plan
