import RowFilter.Proofs.DecimalOrder
import RowFilter.Proofs.Numeral

/-!
# Proofs.DecimalText — decimals read back from their text

The text of a decimal is a sign, a base of digits with at most one point, and an exponent or none.
`Base` and `Exponent` say what such parts stand for, and `read_signed` reads them together, so each
layout of a decimal has only to be shown to be of this form.  What is read is `settled`: zero without
its scale, a number with few zeros appended with these zeros as digits, and every other decimal as it
was.  It stands for the same number (`toRat_settled`) and has the same text (`text_settled`).
-/

namespace RowFilter.Decimal

set_option autoImplicit false

open RowFilter.Text

/-! ## Parts of a text -/

/-- The base has the digits of the word, and a point before the last `places` of them or none. -/
inductive Base : List Char → List Char → Nat → Prop where
  | plain (word : List Char) : Base word word 0
  | point (lead trail : List Char) : Base (lead ++ '.' :: trail) (lead ++ trail) trail.length

/-- The text behind a base gives the exponent. -/
inductive Exponent : List Char → Int → Prop where
  | absent : Exponent [] 0
  | given {mark : Char} {numeral : List Char} {e : Int} (letter : mark = 'e' ∨ mark = 'E')
      (read : readSized 128 numeral = .ok e) : Exponent (mark :: numeral) e

/-- The text with a minus sign where the number is negative. -/
def signed (n : Int) (s : List Char) : List Char := if n < 0 then '-' :: s else s

theorem signed_append (n : Int) (s t : List Char) : signed n (s ++ t) = signed n s ++ t := by
  unfold signed
  split <;> rfl

theorem signed_mul (n : Int) {k : Nat} (pos : 0 < k) (s : List Char) :
    signed (n * k) s = signed n s := by
  have sign : n * k < 0 ↔ n < 0 := by
    constructor
    · exact fun h => neg_of_mul_neg_left h (Int.natCast_nonneg k)
    · exact fun h => mul_neg_of_neg_of_pos h (by exact_mod_cast pos)
  simp only [signed, sign]

theorem mem_signed {n : Int} {s : List Char} {c : Char} (h : c ∈ signed n s) :
    c = '-' ∨ c ∈ s := by
  simp only [signed] at h
  split at h
  · exact List.mem_cons.mp h
  · exact .inr h

theorem signed_ne_nil {n : Int} {s : List Char} (ne : s ≠ []) : signed n s ≠ [] := by
  unfold signed
  split
  · exact List.cons_ne_nil _ _
  · exact ne

/-! ## Reading the parts -/

theorem takeWhile_append_of_stop {p : Char → Bool} {s t : List Char} (pass : ∀ c ∈ s, p c = true)
    (stop : ∀ c ∈ t.head?, p c = false) : (s ++ t).takeWhile p = s := by
  rw [List.takeWhile_append_of_pos pass]
  cases t with
  | nil => simp
  | cons c more => simp [stop c rfl]

theorem splitExponent_append {base tail : List Char} {e : Int}
    (plain : ∀ c ∈ base, c ≠ 'e' ∧ c ≠ 'E') (exponent : Exponent tail e) :
    splitExponent (base ++ tail) = .ok (base, e) := by
  have pass : ∀ c ∈ base, (c != 'e' && c != 'E') = true := by
    intro c mem
    simp [plain c mem]
  have stop : ∀ c ∈ tail.head?, (c != 'e' && c != 'E') = false := by
    intro c head
    cases exponent with
    | absent => simp at head
    | given letter _ =>
        cases head
        rcases letter with rfl | rfl <;> rfl
  simp only [splitExponent, takeWhile_append_of_stop pass stop, List.drop_left]
  cases exponent with
  | absent => rfl
  | given _ read =>
      simp only [read]
      rfl

theorem splitPoint_signed {n : Int} {base word : List Char} {places : Nat}
    (parts : Base base word places) (digits : Digits word) :
    splitPoint (signed n base) = (signed n word, places) := by
  have pass : ∀ {s : List Char}, Digits s → ∀ c ∈ signed n s, (c != '.') = true := by
    intro s word c mem
    rcases mem_signed mem with rfl | mem
    · rfl
    · simp [word.ne mem (d := '.') rfl]
  cases parts with
  | plain =>
      have whole : (signed n base).takeWhile (· != '.') = signed n base := by
        have stopped := takeWhile_append_of_stop (pass digits) (t := []) (by simp)
        rwa [List.append_nil] at stopped
      simp [splitPoint, whole]
  | point lead trail =>
      obtain ⟨left, right⟩ := digits.of_append
      have first : (signed n lead ++ '.' :: trail).takeWhile (· != '.') = signed n lead :=
        takeWhile_append_of_stop (pass left) (by simp)
      have all : trail.filter (· != '_') = trail := by
        rw [List.filter_eq_self]
        intro c mem
        simp [right.ne mem (d := '_') rfl]
      rw [signed_append, splitPoint, first, List.drop_left]
      simp only [all, signed_append]

theorem readGrouped_digits {s : List Char} (word : Digits s) (ne : s ≠ []) :
    readGrouped s = .ok (value s) := by
  have all : s.all (fun c => c.isDigit || c == '_') = true :=
    List.all_eq_true.mpr fun c mem => by simp [word c mem]
  unfold readGrouped
  split
  · exact absurd rfl ne
  · exact absurd rfl (word.ne List.mem_cons_self (d := '_') rfl)
  · rw [if_pos all, List.filter_eq_self.mpr word]

theorem readSigned_signed {n : Int} {s : List Char} (word : Digits s) (ne : s ≠ [])
    (same : value s = n.natAbs) : readSigned (signed n s) = .ok n := by
  have unsigned : ∀ {c : Char} {more : List Char}, c.isDigit = false → s ≠ c :: more := by
    intro c more other same
    exact word.ne (same ▸ List.mem_cons_self) other rfl
  unfold signed
  split
  · have back : -(n.natAbs : Int) = n := by omega
    simp only [readSigned, readGrouped_digits word ne, same]
    exact congrArg Except.ok back
  · have back : (n.natAbs : Int) = n := by omega
    have natural : readNatural s = .ok n.natAbs := by
      unfold readNatural
      split
      · exact absurd rfl (unsigned rfl)
      · rw [readGrouped_digits word ne, same]
    unfold readSigned
    split
    · exact absurd rfl (unsigned rfl)
    · rw [natural]
      exact congrArg Except.ok back

/-- A text made of a sign, a base and an exponent is read as the number they stand for. -/
theorem read_signed {n scale : Int} {base word tail : List Char} {places : Nat} {e : Int}
    (parts : Base base word places) (digits : Digits word) (ne : word ≠ [])
    (same : value word = n.natAbs) (exponent : Exponent tail e)
    (least : Int64.minValue.toInt ≤ scale) (most : scale ≤ Int64.maxValue.toInt)
    (shift : (places : Int) - e = scale) :
    read (signed n base ++ tail) = .ok ⟨n, Int64.ofInt scale⟩ := by
  have point : ∀ c ∈ base, c = '.' ∨ c ∈ word := by
    intro c mem
    cases parts with
    | plain => exact .inr mem
    | point lead trail =>
        simp only [List.mem_append, List.mem_cons] at mem ⊢
        rcases mem with mem | mem | mem
        · exact .inr (.inl mem)
        · exact .inl mem
        · exact .inr (.inr mem)
  have plain : ∀ c ∈ signed n base, c ≠ 'e' ∧ c ≠ 'E' := by
    intro c mem
    rcases mem_signed mem with rfl | mem
    · decide
    · rcases point c mem with rfl | mem
      · decide
      · exact ⟨digits.ne mem rfl, digits.ne mem rfl⟩
  have nonempty : (signed n base).isEmpty = false := by
    rw [List.isEmpty_eq_false_iff]
    apply signed_ne_nil
    cases parts with
    | plain => exact ne
    | point lead trail => simp
  have fits : (scale < Int64.minValue.toInt || Int64.maxValue.toInt < scale) = false := by
    rw [Bool.or_eq_false_iff, decide_eq_false_iff_not, decide_eq_false_iff_not]
    omega
  simp only [read, splitExponent_append plain exponent, nonempty, splitPoint_signed parts digits,
    readSigned_signed digits ne same, shift, fits, Bool.false_eq_true, if_false]

/-! ## The layouts -/

/-- What the text of the decimal is read as. -/
def settled (d : Decimal) : Decimal :=
  if d.digits = 0 then ⟨0, 0⟩
  else if d.scale.toInt ≤ 0 ∧ -d.scale.toInt ≤ appendedZeros then
    ⟨d.digits * (Nat.pow 10 (-d.scale.toInt).toNat : Nat), 0⟩
  else d

theorem base_pointAfterFirst {word : List Char} (ne : word ≠ []) :
    Base (pointAfterFirst word) word (word.length - 1) := by
  obtain ⟨c, more, rfl⟩ := List.exists_cons_of_ne_nil ne
  cases more with
  | nil => exact .plain [c]
  | cons d more => exact .point [c] (d :: more)

theorem base_withPoint {word : List Char} {places : Int} (pos : 0 < places) :
    Base (withPoint word places)
      (List.replicate (places.toNat + 1 - word.length) '0' ++ word) places.toNat := by
  generalize hw : List.replicate (places.toNat + 1 - word.length) '0' ++ word = padded
  have long : places.toNat ≤ padded.length := by
    rw [← hw, List.length_append, List.length_replicate]
    omega
  have split := Base.point (padded.take (padded.length - places.toNat))
    (padded.drop (padded.length - places.toNat))
  have behind : (padded.drop (padded.length - places.toNat)).length = places.toNat := by
    rw [List.length_drop]
    omega
  rw [List.take_append_drop, behind] at split
  simpa only [withPoint, if_neg (not_le.mpr pos), hw] using split

theorem base_withPoint_zeros {word : List Char} {places : Int} (nonpos : places ≤ 0) :
    Base (withPoint word places) (word ++ List.replicate (-places).toNat '0') 0 := by
  rw [withPoint, if_pos nonpos]
  exact .plain _

section Layouts

variable {n scale : Int}

/-- The layout `1.23E-7`: the scale is large, and the exponent negative. -/
theorem read_scientific (small : leadingZeros < scale - (Text.digits n.natAbs).length)
    (most : scale ≤ Int64.maxValue.toInt) :
    read (signed n (pointAfterFirst (Text.digits n.natAbs) ++
      'E' :: integer ((Text.digits n.natAbs).length - 1 - scale))) =
        .ok ⟨n, Int64.ofInt scale⟩ := by
  have ne := digits_ne_nil n.natAbs
  have length := List.length_pos_iff.mpr ne
  have lowest : Int64.minValue.toInt ≤ 0 := by decide
  have highest : Int64.maxValue.toInt < (Nat.pow 2 (128 - 1) : Int) := by decide
  simp only [leadingZeros] at small
  have exponent := Exponent.given (.inr (rfl : 'E' = 'E')) (readSized_integer
    (by omega : -(Nat.pow 2 (128 - 1) : Int) ≤ (Text.digits n.natAbs).length - 1 - scale) (by omega))
  rw [signed_append]
  exact read_signed (base_pointAfterFirst ne) (digits_digits _) ne (value_digits _) exponent
    (by omega) most (by omega)

/-- The layout `123e+16`: the scale is negative, and its opposite is the exponent. -/
theorem read_shifted (large : appendedZeros < -scale) (least : Int64.minValue.toInt ≤ scale) :
    read (signed n (Text.digits n.natAbs ++ 'e' :: '+' :: integer (-scale))) =
      .ok ⟨n, Int64.ofInt scale⟩ := by
  have lowest : -(Nat.pow 2 (128 - 1) : Int) < Int64.minValue.toInt := by decide
  have highest : 0 ≤ Int64.maxValue.toInt := by decide
  simp only [appendedZeros] at large
  have exponent := Exponent.given (.inl (rfl : 'e' = 'e'))
    (readSized_plus (by omega : 0 ≤ -scale) (by omega : -scale < Nat.pow 2 (128 - 1)))
  rw [signed_append]
  exact read_signed (.plain _) (digits_digits _) (digits_ne_nil _) (value_digits _) exponent least
    (by omega) (by omega)

/-- The positional layout with a point. -/
theorem read_pointed (pos : 0 < scale) (most : scale ≤ Int64.maxValue.toInt) :
    read (signed n (withPoint (Text.digits n.natAbs) scale)) = .ok ⟨n, Int64.ofInt scale⟩ := by
  have lowest : Int64.minValue.toInt ≤ 0 := by decide
  have same := value_zeros_append (scale.toNat + 1 - (Text.digits n.natAbs).length)
    (Text.digits n.natAbs)
  rw [value_digits] at same
  rw [← List.append_nil (signed _ _)]
  exact read_signed (base_withPoint pos) ((digits_replicate_zero _).append (digits_digits _))
    (by simp [digits_ne_nil]) same .absent (by omega) most (by omega)

/-- The positional layout without a point: zeros are appended. -/
theorem read_filled (nonpos : scale ≤ 0) :
    read (signed n (withPoint (Text.digits n.natAbs) scale)) =
      .ok ⟨n * (Nat.pow 10 (-scale).toNat : Nat), 0⟩ := by
  have pos : 0 < Nat.pow 10 (-scale).toNat := Nat.pow_pos (by decide)
  have same := value_append_zeros (-scale).toNat (Text.digits n.natAbs)
  rw [value_digits, Nat.mul_comm] at same
  have signless : (n * (Nat.pow 10 (-scale).toNat : Nat)).natAbs =
      n.natAbs * Nat.pow 10 (-scale).toNat := by rw [Int.natAbs_mul, Int.natAbs_natCast]
  rw [← signed_mul n pos, ← List.append_nil (signed _ _)]
  exact read_signed (base_withPoint_zeros nonpos) ((digits_digits _).append (digits_replicate_zero _))
    (by simp [digits_ne_nil]) (same.trans signless.symm) .absent (by decide) (by decide) rfl

end Layouts

theorem text_of_ne_zero {d : Decimal} (ne : d.digits ≠ 0) :
    d.text = signed d.digits (magnitudeText d.digits.natAbs d.scale.toInt) := by
  rw [text, if_neg ne]
  rfl

/-- **A decimal is read back from its text**, settled. -/
theorem read_text (d : Decimal) : read d.text = .ok d.settled := by
  by_cases zero : d.digits = 0
  · rw [text, if_pos zero, settled, if_pos zero]
    rfl
  have least : Int64.minValue.toInt ≤ d.scale.toInt := Int64.minValue_le_toInt d.scale
  have most : d.scale.toInt ≤ Int64.maxValue.toInt := Int64.toInt_le d.scale
  have kept : (⟨d.digits, Int64.ofInt d.scale.toInt⟩ : Decimal) = d := by rw [Int64.ofInt_toInt]
  rw [text_of_ne_zero zero, magnitudeText, settled, if_neg zero]
  split
  · rename_i small
    simp only [leadingZeros] at small
    rw [read_scientific small most, kept, if_neg (by omega)]
  split
  · rename_i large
    rw [read_shifted large least, kept, if_neg (by omega)]
  rename_i few
  by_cases nonpos : d.scale.toInt ≤ 0
  · rw [read_filled nonpos, if_pos ⟨nonpos, not_lt.mp few⟩]
  · rw [read_pointed (not_le.mp nonpos) most, kept, if_neg (by omega)]

theorem toRat_settled (d : Decimal) : d.settled.toRat = d.toRat := by
  unfold settled
  split
  · rename_i zero
    rw [toRat_zero rfl, toRat_zero zero]
  · split
    · rename_i few
      have power := natCast_pow_ten (neg_nonneg.mpr few.1)
      have unscaled : -(0 : Int64).toInt = 0 := by decide
      rw [toRat, toRat, unscaled, zpow_zero, mul_one, Int.cast_mul, Int.cast_natCast, power]
    · rfl

/-! ## Texts of settled decimals -/

theorem magnitudeText_few {n : Nat} {scale : Int} (nonpos : scale ≤ 0)
    (few : -scale ≤ appendedZeros) :
    magnitudeText n scale = Text.digits n ++ List.replicate (-scale).toNat '0' := by
  have long : ¬ leadingZeros < scale - (Text.digits n).length := by
    simp only [leadingZeros]
    omega
  rw [magnitudeText, if_neg long, if_neg (not_lt.mpr few), withPoint, if_pos nonpos]

/-- Settling a decimal leaves its text. -/
theorem text_settled (d : Decimal) : d.settled.text = d.text := by
  unfold settled
  split
  · rename_i zero
    rw [text, text, if_pos zero, if_pos rfl]
  · split
    · rename_i ne few
      have pos : 0 < Nat.pow 10 (-d.scale.toInt).toNat := Nat.pow_pos (by decide)
      have unscaled : (0 : Int64).toInt = 0 := by decide
      have magnitude : (d.digits * (Nat.pow 10 (-d.scale.toInt).toNat : Nat)).natAbs =
          d.digits.natAbs * Nat.pow 10 (-d.scale.toInt).toNat := by
        rw [Int.natAbs_mul, Int.natAbs_natCast]
      have nonzero : d.digits * (Nat.pow 10 (-d.scale.toInt).toNat : Nat) ≠ 0 := by
        rw [← Int.natAbs_ne_zero, magnitude]
        exact Nat.mul_ne_zero (Int.natAbs_ne_zero.mpr ne) pos.ne'
      rw [text_of_ne_zero ne, text_of_ne_zero nonzero, signed_mul _ pos, magnitude, unscaled,
        magnitudeText_few (le_refl 0) (by decide), magnitudeText_few few.1 few.2,
        digits_mul_pow (by omega)]
      simp
    · rfl

end RowFilter.Decimal
