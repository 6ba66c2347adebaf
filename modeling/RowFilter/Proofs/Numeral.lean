import RowFilter.Text.Numeral

/-!
# Proofs.Numeral — numerals read back

The digits of a number denote it (`value_digits`); zeros before a word of digits leave its value and
zeros behind it multiply it.  A numeral within the bounds of a reader is read as the integer it was
written for (`readInteger_integer`), also behind a plus sign.
-/

namespace RowFilter.Text

set_option autoImplicit false

/-! ## Words of digits -/

/-- The word has only digits. -/
def Digits (s : List Char) : Prop := ∀ c ∈ s, c.isDigit = true

instance (s : List Char) : Decidable (Digits s) := decidable_of_iff _ List.all_eq_true

theorem digits_digits (n : Nat) : Digits (digits n) := fun _ h =>
  Nat.isDigit_of_mem_toDigits (by decide) (by decide) h

theorem digits_replicate_zero (n : Nat) : Digits (List.replicate n '0') := by
  intro c h
  rw [List.eq_of_mem_replicate h]
  rfl

theorem Digits.append {s t : List Char} (left : Digits s) (right : Digits t) : Digits (s ++ t) := by
  intro c h
  exact (List.mem_append.mp h).elim (left c) (right c)

theorem Digits.of_append {s t : List Char} (h : Digits (s ++ t)) : Digits s ∧ Digits t :=
  ⟨fun c mem => h c (List.mem_append_left t mem), fun c mem => h c (List.mem_append_right s mem)⟩

theorem Digits.ne {s : List Char} (word : Digits s) {c d : Char} (mem : c ∈ s)
    (other : d.isDigit = false) : c ≠ d := by
  rintro rfl
  rw [word c mem] at other
  cases other

theorem digits_ne_nil (n : Nat) : digits n ≠ [] := Nat.toDigits_ne_nil

/-! ## Values -/

theorem valueFrom_eq (n : Nat) (s : List Char) : valueFrom n s = Nat.ofDigitChars 10 s n := rfl

theorem value_digits (n : Nat) : value (digits n) = n := Nat.ofDigitChars_ten_toDigits

theorem value_zeros_append (n : Nat) (s : List Char) :
    value (List.replicate n '0' ++ s) = value s := by
  simp only [value, valueFrom_eq, Nat.ofDigitChars_append, Nat.ofDigitChars_replicate_zero,
    Nat.mul_zero]

theorem value_append_zeros (n : Nat) (s : List Char) :
    value (s ++ List.replicate n '0') = Nat.pow 10 n * value s := by
  simp only [value, valueFrom_eq, Nat.ofDigitChars_append, Nat.ofDigitChars_replicate_zero]
  rfl

theorem le_valueFrom (n : Nat) (s : List Char) : n ≤ valueFrom n s := by
  induction s generalizing n with
  | nil => exact Nat.le_refl n
  | cons c more ih =>
      have step : n ≤ 10 * n + (c.toNat - 48) := by omega
      exact Nat.le_trans step (ih _)

/-- Zeros behind a number multiply it. -/
theorem digits_mul_pow {n : Nat} (pos : 0 < n) (k : Nat) :
    digits (n * Nat.pow 10 k) = digits n ++ List.replicate k '0' := by
  induction k with
  | zero => simp [digits]
  | succ k ih =>
      have more : 0 < n * Nat.pow 10 k := Nat.mul_pos pos (Nat.pow_pos (by decide))
      calc digits (n * (Nat.pow 10 k * 10))
          = digits (10 * (n * Nat.pow 10 k) + 0) := by rw [← Nat.mul_assoc, Nat.mul_comm, Nat.add_zero]
        _ = digits (n * Nat.pow 10 k) ++ digits 0 :=
            (Nat.toDigits_append_toDigits (by decide) more (by decide)).symm
        _ = digits n ++ List.replicate (k + 1) '0' := by
            rw [ih, List.append_assoc, List.replicate_succ']
            rfl

/-! ## Lengths -/

theorem length_digits_le {n k : Nat} (pos : 0 < k) (lt : n < Nat.pow 10 k) :
    (digits n).length ≤ k :=
  (Nat.length_toDigits_le_iff (by decide) pos).mpr lt

theorem length_padded {width n : Nat} (pos : 0 < width) (lt : n < Nat.pow 10 width) :
    (padded width n).length = width := by
  have short := length_digits_le pos lt
  rw [padded, List.length_append, List.length_replicate]
  omega

theorem valueFrom_lt {s : List Char} (word : Digits s) (n : Nat) :
    valueFrom n s < (n + 1) * Nat.pow 10 s.length := by
  induction s generalizing n with
  | nil => simp [valueFrom]
  | cons c more ih =>
      have digit : c.toNat ≤ 57 := (Char.isDigit_iff_toNat.mp (word c List.mem_cons_self)).2
      have rest : Digits more := fun d mem => word d (List.mem_cons_of_mem c mem)
      have le : 10 * n + (c.toNat - 48) + 1 ≤ (n + 1) * 10 := by omega
      calc valueFrom n (c :: more) = valueFrom (10 * n + (c.toNat - 48)) more := rfl
        _ < (10 * n + (c.toNat - 48) + 1) * Nat.pow 10 more.length := ih rest _
        _ ≤ (n + 1) * 10 * Nat.pow 10 more.length := Nat.mul_le_mul_right _ le
        _ = (n + 1) * Nat.pow 10 (c :: more).length := by
            rw [Nat.mul_assoc, Nat.mul_comm 10]
            rfl

/-- A number has no more digits than a word that denotes it. -/
theorem length_digits_value_le {s : List Char} (word : Digits s) (ne : s ≠ []) :
    (digits (value s)).length ≤ s.length := by
  have lt := valueFrom_lt word 0
  rw [Nat.zero_add, Nat.one_mul] at lt
  exact length_digits_le (List.length_pos_iff.mpr ne) lt

/-! ## Reading -/

section Reading

variable {most : Nat} {fault : NumeralFault}

theorem readMagnitude_valueFrom {s : List Char} (word : Digits s) {n : Nat}
    (le : valueFrom n s ≤ most) : readMagnitude most fault n s = .ok (valueFrom n s) := by
  induction s generalizing n with
  | nil => rfl
  | cons c more ih =>
      have digit : digitValue? c = some (c.toNat - 48) := if_pos (word c List.mem_cons_self)
      have small : 10 * n + (c.toNat - 48) ≤ most := Nat.le_trans (le_valueFrom _ more) le
      simp only [readMagnitude, digit, if_pos small]
      exact ih (fun d mem => word d (List.mem_cons_of_mem c mem)) le

theorem readUnsigned_digits {n : Nat} (le : n ≤ most) :
    readUnsigned most fault (digits n) = .ok n := by
  have given : valueFrom 0 (digits n) = n := value_digits n
  have nonempty : (digits n).isEmpty = false := by simp [digits_ne_nil]
  rw [readUnsigned, nonempty, if_neg Bool.false_ne_true,
    readMagnitude_valueFrom (digits_digits n) (given.symm ▸ le), given]

variable {lower upper n : Int}

theorem readInteger_digits {n : Nat} (le : (n : Int) ≤ upper) :
    readInteger lower upper (digits n) = .ok (n : Int) := by
  have read : readUnsigned upper.toNat .tooLarge (digits n) = .ok n := readUnsigned_digits (by omega)
  have unsigned : ∀ {c : Char} {more : List Char}, c.isDigit = false → digits n ≠ c :: more := by
    intro c more other same
    exact (digits_digits n).ne (same ▸ List.mem_cons_self) other rfl
  unfold readInteger
  split
  · rename_i empty
    exact absurd empty (digits_ne_nil n)
  · rename_i plus
    exact absurd plus (unsigned rfl)
  · rename_i minus
    exact absurd minus (unsigned rfl)
  · rw [read]
    rfl

/-- A numeral within the bounds is read as its integer. -/
theorem readInteger_integer (ge : lower ≤ n) (le : n ≤ upper) :
    readInteger lower upper (integer n) = .ok n := by
  unfold integer
  split
  · rename_i negative
    have read : readUnsigned (-lower).toNat .tooSmall (digits n.natAbs) = .ok n.natAbs :=
      readUnsigned_digits (by omega)
    have same : -(n.natAbs : Int) = n := by omega
    simp only [readInteger, if_pos (by omega : lower < 0), read]
    exact congrArg Except.ok same
  · have same : (n.natAbs : Int) = n := by omega
    rw [readInteger_digits (by omega), same]

theorem readInteger_plus (lower : Int) (ge : 0 ≤ n) (le : n ≤ upper) :
    readInteger lower upper ('+' :: integer n) = .ok n := by
  have read : readUnsigned upper.toNat .tooLarge (digits n.natAbs) = .ok n.natAbs :=
    readUnsigned_digits (by omega)
  have same : (n.natAbs : Int) = n := by omega
  simp only [integer, if_neg (by omega : ¬ n < 0), readInteger, read]
  exact congrArg Except.ok same

theorem readSized_integer {bits : Nat} (ge : -(Nat.pow 2 (bits - 1) : Int) ≤ n)
    (lt : n < Nat.pow 2 (bits - 1)) : readSized bits (integer n) = .ok n :=
  readInteger_integer ge (Int.le_sub_one_of_lt lt)

theorem readSized_plus {bits : Nat} (ge : 0 ≤ n) (lt : n < Nat.pow 2 (bits - 1)) :
    readSized bits ('+' :: integer n) = .ok n :=
  readInteger_plus (-(Nat.pow 2 (bits - 1) : Int)) ge (Int.le_sub_one_of_lt lt)

end Reading

end RowFilter.Text
