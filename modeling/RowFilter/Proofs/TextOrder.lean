import RowFilter.Proofs.Lexicographic
import RowFilter.Proofs.Numeral
import RowFilter.Proofs.Utf8
import Mathlib.Algebra.Order.Ring.Nat

/-!
# Proofs.TextOrder — the order of texts

Strings are in the order of their characters (`compare_toList`), words of digits of one length in the
order of the numbers they denote (`compare_value`), and texts of ASCII characters in that of their bytes
(`compare_encode`).
-/

namespace RowFilter.Text

set_option autoImplicit false

theorem compare_eq_lt_iff {s t : List Char} : Ord.compare s t = .lt ↔ s < t := by
  induction s generalizing t with
  | nil => cases t <;> simp
  | cons c s ih =>
      cases t with
      | nil => simp
      | cons d t =>
          have less : Ord.compare c d = .lt ↔ c < d := Std.LawfulLTCmp.eq_lt_iff_lt
          have equal : Ord.compare c d = .eq ↔ c = d := Std.LawfulEqCmp.compare_eq_iff_eq
          rw [List.compare_cons_cons, Ordering.then_eq_lt, ih, less, equal, List.cons_lt_cons_iff]

/-- Strings are in the order of their characters. -/
theorem compare_toList (s t : String) : Ord.compare s.toList t.toList = Ord.compare s t := by
  refine compare_of_lt_iff (fun s t => ?_) s t
  rw [compare_eq_lt_iff, ← String.lt_iff]
  exact Std.LawfulLTCmp.eq_lt_iff_lt.symm

theorem compare_toNat (c d : Char) : Ord.compare c.toNat d.toNat = Ord.compare c d := by
  refine compare_of_lt_iff (fun c d => ?_) c d
  have less : Ord.compare c d = .lt ↔ c < d := Std.LawfulLTCmp.eq_lt_iff_lt
  rw [compare_lt_iff_lt, less]
  exact Iff.rfl

/-! ## Digits -/

theorem compare_valueFrom {s t : List Char} (left : Digits s) (right : Digits t)
    (same : s.length = t.length) (m n : Nat) :
    Ord.compare (valueFrom m s) (valueFrom n t) = (Ord.compare m n).then (Ord.compare s t) := by
  induction s generalizing t m n with
  | nil =>
      obtain rfl := List.eq_nil_of_length_eq_zero same.symm
      exact Ordering.then_eq.symm
  | cons c s ih =>
      cases t with
      | nil => cases same
      | cons d t =>
          have digit := Char.isDigit_iff_toNat.mp (left c List.mem_cons_self)
          have digit' := Char.isDigit_iff_toNat.mp (right d List.mem_cons_self)
          have step : Ord.compare (10 * m + (c.toNat - 48)) (10 * n + (d.toNat - 48)) =
              (Ord.compare m n).then (Ord.compare c d) := by
            rw [← compare_toNat]
            have low : '0'.toNat = 48 := rfl
            have high : '9'.toNat = 57 := rfl
            exact compare_then (by omega) (by omega) fun equal =>
              compare_congr (by omega) (by omega) (by omega)
          have rest := ih (fun c mem => left c (List.mem_cons_of_mem _ mem))
            (fun d mem => right d (List.mem_cons_of_mem _ mem)) (Nat.succ.inj same)
            (10 * m + (c.toNat - 48)) (10 * n + (d.toNat - 48))
          rw [step, Ordering.then_assoc, ← List.compare_cons_cons] at rest
          exact rest

/-- **Words of digits of one length are in the order of their numbers.** -/
theorem compare_value {s t : List Char} (left : Digits s) (right : Digits t)
    (same : s.length = t.length) : Ord.compare (value s) (value t) = Ord.compare s t :=
  compare_valueFrom left right same 0 0

/-! ## Bytes -/

namespace Utf8

theorem compare_byte {m n : Nat} (left : m < 256) (right : n < 256) :
    Ord.compare (byte m) (byte n) = Ord.compare m n := by
  have embeds := compare_of_lt_iff (f := UInt8.toNat) (fun a b => by
    rw [compare_lt_iff_lt, ← UInt8.lt_iff_toNat_lt]
    exact Std.LawfulLTCmp.eq_lt_iff_lt.symm) (byte m) (byte n)
  rw [← embeds, byte_toNat left, byte_toNat right]

/-- **Texts of ASCII characters are in the order of their bytes.** -/
theorem compare_encode {s t : List Char} (left : ∀ c ∈ s, c.toNat < 128)
    (right : ∀ c ∈ t, c.toNat < 128) :
    Ord.compare (encode s) (encode t) = Ord.compare s t := by
  have one : ∀ c : Char, c.toNat < 128 → encodeChar c = [byte c.toNat] := fun c small => if_pos small
  induction s generalizing t with
  | nil =>
      cases t with
      | nil => rfl
      | cons d t =>
          rw [encode, encode, List.flatMap_cons, one d (right d List.mem_cons_self)]
          rfl
  | cons c s ih =>
      rw [List.forall_mem_cons] at left
      cases t with
      | nil =>
          rw [encode, encode, List.flatMap_cons, one c left.1]
          rfl
      | cons d t =>
          rw [List.forall_mem_cons] at right
          have rest := ih left.2 right.2
          rw [encode, encode] at rest ⊢
          rw [List.flatMap_cons, List.flatMap_cons, one c left.1, one d right.1,
            List.singleton_append, List.singleton_append, List.compare_cons_cons,
            List.compare_cons_cons, rest, compare_byte (by omega) (by omega), compare_toNat]

end Utf8

end RowFilter.Text
