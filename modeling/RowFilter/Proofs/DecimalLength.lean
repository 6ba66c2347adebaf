import RowFilter.Proofs.DecimalText
import RowFilter.Proofs.Evaluation
import RowFilter.Proofs.Utf8

/-!
# Proofs.DecimalLength — how long the text of a decimal is

The text of a decimal has its digits, a sign, and at most twenty characters more, or one more for each
digit.  A text that is read as the decimal has its digits and its sign too.  So writing a decimal that
was read makes the text no longer than twice what it was, and twenty (`length_text_le`).  Each of its
characters is one byte (`length_encode_text`).
-/

namespace RowFilter.Decimal

set_option autoImplicit false

open RowFilter.Text

/-! ## Writing -/

theorem length_signed (n : Int) (s : List Char) :
    (signed n s).length = s.length + (signed n []).length := by
  unfold signed
  split <;> rfl

theorem length_integer_le {n : Int} (lt : n.natAbs < Nat.pow 10 19) :
    (integer n).length ≤ 20 := by
  have digits := length_digits_le (by decide) lt
  unfold integer
  split
  · exact Nat.succ_le_succ digits
  · exact Nat.le_succ_of_le digits

theorem length_pointAfterFirst_le {s : List Char} (ne : s ≠ []) :
    (pointAfterFirst s).length + 1 ≤ 2 * s.length := by
  obtain ⟨c, more, rfl⟩ := List.exists_cons_of_ne_nil ne
  cases more with
  | nil => exact Nat.le_refl _
  | cons d more =>
      simp only [pointAfterFirst, List.length_cons]
      omega

theorem length_withPoint_le {s : List Char} {scale : Int} :
    (withPoint s scale).length ≤ max (s.length + (-scale).toNat) (max s.length (scale.toNat + 1) + 1) := by
  unfold withPoint
  split
  · rw [List.length_append, List.length_replicate]
    omega
  · simp only [List.length_append, List.length_cons, List.length_take, List.length_drop,
      List.length_replicate]
    omega

/-- The text of a magnitude is hardly longer than twice its digits. -/
theorem length_magnitudeText_le {n : Nat} {scale : Int} (least : Int64.minValue.toInt ≤ scale)
    (most : scale ≤ Int64.maxValue.toInt) :
    (magnitudeText n scale).length ≤ 2 * (Text.digits n).length + 20 := by
  have ne := digits_ne_nil n
  have pos := List.length_pos_iff.mpr ne
  have lowest : -(Nat.pow 10 19 : Int) < Int64.minValue.toInt := by decide
  have highest : Int64.maxValue.toInt < (Nat.pow 10 19 : Int) := by decide
  rw [magnitudeText]
  split
  · rename_i small
    simp only [leadingZeros] at small
    have base := length_pointAfterFirst_le ne
    have exponent : (integer ((Text.digits n).length - 1 - scale)).length ≤ 20 :=
      length_integer_le (by omega)
    simp only [List.length_append, List.length_cons]
    omega
  split
  · rename_i large
    simp only [appendedZeros] at large
    have natural : integer (-scale) = Text.digits scale.natAbs := by
      rw [integer, if_neg (by omega), Int.natAbs_neg]
    have exponent : (Text.digits scale.natAbs).length ≤ 19 :=
      length_digits_le (by decide) (by omega)
    simp only [List.length_append, List.length_cons, natural]
    omega
  · rename_i small large
    simp only [leadingZeros, appendedZeros] at small large
    refine Nat.le_trans length_withPoint_le ?_
    omega

/-! ## Reading -/

theorem length_of_readGrouped {s : List Char} {n : Nat} (h : readGrouped s = .ok n) (pos : 0 < n) :
    (Text.digits n).length ≤ s.length := by
  unfold readGrouped at h
  split at h
  · cases h
  · cases h
  · split at h
    · cases h
      have word : Digits (s.filter Char.isDigit) := fun c mem => (List.mem_filter.mp mem).2
      have ne : s.filter Char.isDigit ≠ [] := by
        intro empty
        rw [empty] at pos
        exact absurd pos (by decide)
      exact Nat.le_trans (length_digits_value_le word ne) (List.length_filter_le _ _)
    · cases h

theorem length_of_readNatural {s : List Char} {n : Nat} (h : readNatural s = .ok n) (pos : 0 < n) :
    (Text.digits n).length ≤ s.length := by
  unfold readNatural at h
  split at h
  · exact Nat.le_succ_of_le (length_of_readGrouped h pos)
  · exact length_of_readGrouped h pos

theorem length_of_readSigned {s : List Char} {n : Int} (h : readSigned s = .ok n) (ne : n ≠ 0) :
    (signed n (Text.digits n.natAbs)).length ≤ s.length := by
  unfold readSigned at h
  split at h
  · obtain ⟨_, lifted, rfl⟩ := map_eq_ok.mp h
    obtain ⟨m, read, same⟩ := bind_eq_ok.mp lifted
    cases same
    have pos : 0 < m := by omega
    have le := length_of_readGrouped read pos
    have negative : -(m : Int) < 0 := by omega
    rw [signed, if_pos negative, Int.natAbs_neg, Int.natAbs_natCast]
    exact Nat.succ_le_succ le
  · obtain ⟨_, lifted, rfl⟩ := map_eq_ok.mp h
    obtain ⟨m, read, same⟩ := bind_eq_ok.mp lifted
    cases same
    have pos : 0 < m := by omega
    have natural : ¬ (m : Int) < 0 := by omega
    rw [signed, if_neg natural, Int.natAbs_natCast]
    exact length_of_readNatural read pos

theorem length_splitPoint_le (base : List Char) : (splitPoint base).1.length ≤ base.length := by
  have lead : (base.takeWhile (· != '.')).length ≤ base.length :=
    (List.takeWhile_sublist _).length_le
  simp only [splitPoint]
  split
  · exact Nat.le_refl _
  · rename_i c trail rest
    have lengths := congrArg List.length rest
    rw [List.length_drop, List.length_cons] at lengths
    rw [List.length_append]
    omega

theorem length_splitExponent_le {s base : List Char} {e : Int}
    (h : splitExponent s = .ok (base, e)) : base.length ≤ s.length := by
  have lead : (s.takeWhile fun c => c != 'e' && c != 'E').length ≤ s.length :=
    (List.takeWhile_sublist _).length_le
  simp only [splitExponent] at h
  split at h
  · cases h
    exact lead
  · obtain ⟨e, -, same⟩ := map_eq_ok.mp h
    cases same
    exact lead

/-- The digits of a decimal are read from a part of its text. -/
theorem digits_of_read {s : List Char} {d : Decimal} (h : read s = .ok d) :
    ∃ word, readSigned word = .ok d.digits ∧ word.length ≤ s.length := by
  unfold read at h
  split at h
  · cases h
  · rename_i base exponent parts
    split at h
    · cases h
    have shorter := length_splitExponent_le parts
    have le := length_splitPoint_le base
    simp only at h
    split at h
    · cases h
    split at h
    · cases h
    · cases h
      exact ⟨_, by assumption, by omega⟩

/-- The text of a decimal is hardly longer than twice any text that is read as it. -/
theorem length_text_le {s : List Char} {d : Decimal} (h : read s = .ok d) :
    d.text.length ≤ 2 * s.length + 20 := by
  by_cases zero : d.digits = 0
  · rw [text, if_pos zero]
    exact Nat.le_add_left 1 _
  · obtain ⟨word, read, shorter⟩ := digits_of_read h
    have digits := length_of_readSigned read zero
    have magnitude := length_magnitudeText_le (n := d.digits.natAbs) (Int64.minValue_le_toInt d.scale)
      (Int64.toInt_le d.scale)
    rw [text_of_ne_zero zero, length_signed]
    rw [length_signed] at digits
    omega

/-! ## Bytes -/

/-- Every character of the text is one byte. -/
def Narrow (s : List Char) : Prop := ∀ c ∈ s, c.toNat < 0x80

section Narrow

variable {s t : List Char}

theorem Narrow.append (hs : Narrow s) (ht : Narrow t) : Narrow (s ++ t) := fun c mem =>
  (List.mem_append.mp mem).elim (hs c) (ht c)

theorem Narrow.cons {c : Char} (hc : c.toNat < 0x80) (hs : Narrow s) : Narrow (c :: s) :=
  List.forall_mem_cons.mpr ⟨hc, hs⟩

theorem Narrow.subset (hs : Narrow s) (sub : t ⊆ s) : Narrow t := fun c mem => hs c (sub mem)

theorem narrow_of_digits (word : Digits s) : Narrow s := fun c mem => by
  have digit : c.toNat ≤ 57 := (Char.isDigit_iff_toNat.mp (word c mem)).2
  omega

theorem narrow_integer (n : Int) : Narrow (integer n) := by
  unfold integer
  split
  · exact (narrow_of_digits (digits_digits _)).cons (by decide)
  · exact narrow_of_digits (digits_digits _)

theorem narrow_pointAfterFirst (hs : Narrow s) : Narrow (pointAfterFirst s) := by
  cases s with
  | nil => exact hs
  | cons c more =>
      cases more with
      | nil => exact hs
      | cons d more =>
          obtain ⟨hc, rest⟩ := List.forall_mem_cons.mp hs
          exact (Narrow.cons (by decide) rest).cons hc

theorem narrow_withPoint (hs : Narrow s) (scale : Int) : Narrow (withPoint s scale) := by
  have zeros : ∀ n, Narrow (List.replicate n '0') := fun n =>
    narrow_of_digits (digits_replicate_zero n)
  unfold withPoint
  split
  · exact hs.append (zeros _)
  · have whole := (zeros (scale.toNat + 1 - s.length)).append hs
    exact (whole.subset (List.take_subset _ _)).append
      ((whole.subset (List.drop_subset _ _)).cons (by decide))

theorem narrow_text (d : Decimal) : Narrow d.text := by
  have magnitude : ∀ (n : Nat) (scale : Int), Narrow (magnitudeText n scale) := by
    intro n scale
    have word := narrow_of_digits (digits_digits n)
    rw [magnitudeText]
    split
    · exact (narrow_pointAfterFirst word).append ((narrow_integer _).cons (by decide))
    split
    · exact word.append (((narrow_integer _).cons (by decide)).cons (by decide))
    · exact narrow_withPoint word scale
  unfold text
  split
  · exact narrow_of_digits (digits_replicate_zero 1)
  split
  · exact (magnitude _ _).cons (by decide)
  · exact magnitude _ _

theorem length_encode_le (s : List Char) : s.length ≤ (Utf8.encode s).length := by
  induction s with
  | nil => exact Nat.le_refl 0
  | cons c more ih =>
      have pos : 0 < (Utf8.encodeChar c).length := by
        simp only [Utf8.encodeChar]
        split_ifs <;> simp
      rw [Utf8.encode_cons, List.length_append, List.length_cons]
      omega

theorem Narrow.length_encode (hs : Narrow s) : (Utf8.encode s).length = s.length := by
  induction s with
  | nil => rfl
  | cons c more ih =>
      obtain ⟨hc, rest⟩ := List.forall_mem_cons.mp hs
      have single : Utf8.encodeChar c = [Utf8.byte c.toNat] := if_pos hc
      rw [Utf8.encode_cons, single, List.length_append, ih rest, List.length_cons, Nat.add_comm]
      rfl

end Narrow

/-- In bytes too, the text of a decimal is hardly longer than twice any text that is read as it. -/
theorem length_encode_text {s : List Char} {d : Decimal} (h : read s = .ok d) :
    (Utf8.encode d.text).length ≤ 2 * (Utf8.encode s).length + 20 := by
  have written := length_text_le h
  have wide := length_encode_le s
  rw [(narrow_text d).length_encode]
  omega

end RowFilter.Decimal
