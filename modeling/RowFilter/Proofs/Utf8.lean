import RowFilter.Text.Utf8

/-!
# Proofs.Utf8 — texts read back from their bytes

Each of the four forms of a character is read back as that character and leaves the bytes behind it
(`decodeFrom_encodeChar`); a text is read back character by character (`decode_encode`).  What the
first byte says of the second is met because a character is no surrogate and below 0x110000.
Conversely every accepted sequence is that of its character, so a text has one spelling in bytes
(`encode_decode`).
-/

namespace RowFilter.Text.Utf8

set_option autoImplicit false

/-! ## Bytes of a sequence -/

theorem byte_toNat {n : Nat} (h : n < 256) : (byte n).toNat = n := by
  simp [byte, Nat.mod_eq_of_lt h]

theorem isContinuation_byte (n : Nat) : isContinuation (byte (0x80 + n % 64)) = true := by
  rw [isContinuation, within, byte_toNat (by omega), Bool.and_eq_true, decide_eq_true_iff,
    decide_eq_true_iff]
  omega

theorem tail_byte (n : Nat) : tail (byte (0x80 + n % 64)) = n % 64 := by
  rw [tail, byte_toNat (by omega)]
  omega

section Lead

variable {n : Nat}

theorem lead_single (h : n < 0x80) : lead n = .single := if_pos h

theorem lead_two (low : 0x80 ≤ n) (high : n < 0x800) : lead (0xC0 + n / 64) = .two := by
  rw [lead, if_neg (by omega), if_neg (by omega), if_pos (by omega)]

theorem lead_three (low : 0x800 ≤ n) (high : n < 0x10000) (scalar : n < 0xD800 ∨ 0xDFFF < n) :
    ∃ lower upper, lead (0xE0 + n / 4096) = .three lower upper ∧
      within lower upper (byte (0x80 + n / 64 % 64)) = true := by
  simp only [within, byte_toNat (by omega : 0x80 + n / 64 % 64 < 256), Bool.and_eq_true,
    decide_eq_true_iff]
  rw [lead, if_neg (by omega), if_neg (by omega), if_neg (by omega)]
  by_cases shortest : 0xE0 + n / 4096 = 0xE0
  · exact ⟨0xA0, 0xBF, if_pos shortest, by omega⟩
  by_cases surrogates : 0xE0 + n / 4096 = 0xED
  · exact ⟨0x80, 0x9F, by rw [if_neg shortest, if_pos surrogates], by omega⟩
  · refine ⟨0x80, 0xBF, ?_, by omega⟩
    rw [if_neg shortest, if_neg surrogates, if_pos (by omega)]

theorem lead_four (low : 0x10000 ≤ n) (high : n < 0x110000) :
    ∃ lower upper, lead (0xF0 + n / 262144) = .four lower upper ∧
      within lower upper (byte (0x80 + n / 4096 % 64)) = true := by
  simp only [within, byte_toNat (by omega : 0x80 + n / 4096 % 64 < 256), Bool.and_eq_true,
    decide_eq_true_iff]
  rw [lead, if_neg (by omega), if_neg (by omega), if_neg (by omega), if_neg (by omega),
    if_neg (by omega), if_neg (by omega)]
  by_cases shortest : 0xF0 + n / 262144 = 0xF0
  · exact ⟨0x90, 0xBF, if_pos shortest, by omega⟩
  by_cases middle : 0xF0 + n / 262144 < 0xF4
  · exact ⟨0x80, 0xBF, by rw [if_neg shortest, if_pos middle], by omega⟩
  · refine ⟨0x80, 0x8F, ?_, by omega⟩
    rw [if_neg shortest, if_neg middle, if_pos (by omega)]

end Lead

/-! ## Reading -/

/-- A character is read back, whatever stands behind it. -/
theorem decodeFrom_encodeChar (c : Char) (offset : Nat) (rest : List UInt8) :
    decodeFrom offset (encodeChar c ++ rest) =
      (decodeFrom (offset + (encodeChar c).length) rest).map (c :: ·) := by
  have scalar : c.toNat < 0xD800 ∨ 0xDFFF < c.toNat ∧ c.toNat < 0x110000 := c.valid
  have back : ∀ {n : Nat}, n = c.toNat → Char.ofNat n = c := by
    rintro _ rfl
    exact Char.ofNat_toNat c
  simp only [encodeChar]
  split
  · rename_i small
    have same : (byte c.toNat).toNat = c.toNat := byte_toNat (by omega)
    rw [List.cons_append, decodeFrom.eq_def]
    simp only [List.nil_append, same, lead_single small, back rfl]
    rfl
  · split
    · have first : (byte (0xC0 + c.toNat / 64)).toNat = 0xC0 + c.toNat / 64 :=
        byte_toNat (by omega)
      have code : (0xC0 + c.toNat / 64) % 32 * 64 + c.toNat % 64 = c.toNat := by omega
      rw [List.cons_append, decodeFrom.eq_def]
      simp only [List.cons_append, List.nil_append, first,
        lead_two (n := c.toNat) (by omega) (by omega), isContinuation_byte, tail_byte, back code]
      rfl
    · split
      · have first : (byte (0xE0 + c.toNat / 4096)).toNat = 0xE0 + c.toNat / 4096 :=
          byte_toNat (by omega)
        have code : (0xE0 + c.toNat / 4096) % 16 * 4096 + c.toNat / 64 % 64 * 64 + c.toNat % 64 =
            c.toNat := by omega
        obtain ⟨lower, upper, three, second⟩ :=
          lead_three (n := c.toNat) (by omega) (by omega) (by omega)
        rw [List.cons_append, decodeFrom.eq_def]
        simp only [List.cons_append, List.nil_append, first, three, second, isContinuation_byte,
          tail_byte, back code]
        rfl
      · have first : (byte (0xF0 + c.toNat / 262144)).toNat = 0xF0 + c.toNat / 262144 :=
          byte_toNat (by omega)
        have code : (0xF0 + c.toNat / 262144) % 8 * 262144 + c.toNat / 4096 % 64 * 4096 +
            c.toNat / 64 % 64 * 64 + c.toNat % 64 = c.toNat := by omega
        obtain ⟨lower, upper, four, second⟩ := lead_four (n := c.toNat) (by omega) (by omega)
        rw [List.cons_append, decodeFrom.eq_def]
        simp only [List.cons_append, List.nil_append, first, four, second, isContinuation_byte,
          tail_byte, back code]
        rfl

/-- **A text is read back from its bytes.** -/
theorem decode_encode (s : List Char) : decode (encode s) = .ok s := by
  have any : ∀ offset, decodeFrom offset (encode s) = .ok s := by
    induction s with
    | nil =>
        intro offset
        rfl
    | cons c more ih =>
        intro offset
        have split : encode (c :: more) = encodeChar c ++ encode more := List.flatMap_cons
        rw [split, decodeFrom_encodeChar, ih]
        rfl
  exact any 0

/-! ## Accepted bytes -/

section Accepted

theorem toNat_of_valid {n : Nat} (valid : n.isValidChar) : (Char.ofNat n).toNat = n := by
  rw [Char.ofNat, dif_pos valid]
  rfl

theorem byte_eq {n : Nat} {b : UInt8} (h : n = b.toNat) : byte n = b := by
  rw [byte, h, UInt8.ofNat_toNat]

theorem within_iff {lower upper : Nat} {b : UInt8} :
    within lower upper b = true ↔ lower ≤ b.toNat ∧ b.toNat ≤ upper := by
  rw [within, Bool.and_eq_true, decide_eq_true_iff, decide_eq_true_iff]

/-- What the first byte of a sequence can be.  The ranges of the second byte leave out the surrogates and
what fewer bytes can write. -/
theorem bounds_of_lead {n : Nat} {l : Lead} (h : lead n = l) :
    match l with
    | .stray => True
    | .single => n < 0x80
    | .two => 0xC2 ≤ n ∧ n < 0xE0
    | .three lower upper => 0xE0 ≤ n ∧ n < 0xF0 ∧ 0x80 ≤ lower ∧ upper ≤ 0xBF ∧
        (n = 0xE0 → 0xA0 ≤ lower) ∧ (n = 0xED → upper ≤ 0x9F)
    | .four lower upper => 0xF0 ≤ n ∧ n ≤ 0xF4 ∧ 0x80 ≤ lower ∧ upper ≤ 0xBF ∧
        (n = 0xF0 → 0x90 ≤ lower) ∧ (n = 0xF4 → upper ≤ 0x8F) := by
  unfold lead at h
  repeat' split at h
  all_goals
    subst h
    first | trivial | omega

variable {a b c d : UInt8} {lower upper : Nat}

theorem encodeChar_single (h : lead a.toNat = .single) :
    encodeChar (Char.ofNat a.toNat) = [a] := by
  have small := bounds_of_lead h
  have code : (Char.ofNat a.toNat).toNat = a.toNat := toNat_of_valid (.inl (by omega))
  simp only [encodeChar, code, if_pos small, byte_eq rfl]

theorem encodeChar_two (h : lead a.toNat = .two) (hb : isContinuation b = true) :
    encodeChar (Char.ofNat (a.toNat % 32 * 64 + tail b)) = [a, b] := by
  have first := bounds_of_lead h
  have second := within_iff.mp hb
  simp only [tail]
  generalize hn : a.toNat % 32 * 64 + b.toNat % 64 = n
  have code : (Char.ofNat n).toNat = n := toNat_of_valid (.inl (by omega))
  simp only [encodeChar, code]
  rw [if_neg (by omega), if_pos (by omega), byte_eq (b := a) (by omega), byte_eq (b := b) (by omega)]

theorem encodeChar_three (h : lead a.toNat = .three lower upper)
    (hb : within lower upper b = true) (hc : isContinuation c = true) :
    encodeChar (Char.ofNat (a.toNat % 16 * 4096 + tail b * 64 + tail c)) = [a, b, c] := by
  have first := bounds_of_lead h
  have second := within_iff.mp hb
  have third := within_iff.mp hc
  simp only [tail]
  generalize hn : a.toNat % 16 * 4096 + b.toNat % 64 * 64 + c.toNat % 64 = n
  have code : (Char.ofNat n).toNat = n := by
    refine toNat_of_valid ?_
    simp only [Nat.isValidChar]
    omega
  simp only [encodeChar, code]
  rw [if_neg (by omega), if_neg (by omega), if_pos (by omega), byte_eq (b := a) (by omega),
    byte_eq (b := b) (by omega), byte_eq (b := c) (by omega)]

theorem encodeChar_four (h : lead a.toNat = .four lower upper)
    (hb : within lower upper b = true) (hc : isContinuation c = true)
    (hd : isContinuation d = true) :
    encodeChar (Char.ofNat (a.toNat % 8 * 262144 + tail b * 4096 + tail c * 64 + tail d)) =
      [a, b, c, d] := by
  have first := bounds_of_lead h
  have second := within_iff.mp hb
  have third := within_iff.mp hc
  have fourth := within_iff.mp hd
  simp only [tail]
  generalize hn : a.toNat % 8 * 262144 + b.toNat % 64 * 4096 + c.toNat % 64 * 64 + d.toNat % 64 = n
  have code : (Char.ofNat n).toNat = n := by
    refine toNat_of_valid ?_
    simp only [Nat.isValidChar]
    omega
  simp only [encodeChar, code]
  rw [if_neg (by omega), if_neg (by omega), if_neg (by omega), byte_eq (b := a) (by omega),
    byte_eq (b := b) (by omega), byte_eq (b := c) (by omega), byte_eq (b := d) (by omega)]

end Accepted

theorem encode_cons (c : Char) (s : List Char) : encode (c :: s) = encodeChar c ++ encode s :=
  List.flatMap_cons

/-- A character read before a text that was written as `rest`. -/
theorem encode_of_map {x : Except Fault (List Char)} {c : Char} {s : List Char} {rest : List UInt8}
    (h : x.map (c :: ·) = .ok s) (more : ∀ {s'}, x = .ok s' → encode s' = rest) :
    encode s = encodeChar c ++ rest := by
  cases x with
  | error => cases h
  | ok s' =>
      cases h
      rw [encode_cons, more rfl]

theorem encode_decodeFrom {offset : Nat} {bytes : List UInt8} {s : List Char}
    (h : decodeFrom offset bytes = .ok s) : encode s = bytes := by
  -- The cases are those of the reader: the end, the four forms of a character, and faults.
  fun_induction decodeFrom offset bytes generalizing s with
  | case1 =>
      cases h
      rfl
  | case3 offset a rest single ih =>
      rw [encode_of_map h ih, encodeChar_single single]
      rfl
  | case6 offset a b rest two hb ih =>
      rw [encode_of_map h ih, encodeChar_two two (by simpa using hb)]
      rfl
  | case11 offset a lower upper b three hb c rest hc ih =>
      rw [encode_of_map h ih, encodeChar_three three (by simpa using hb) (by simpa using hc)]
      rfl
  | case18 offset a lower upper b four hb c hc d rest hd ih =>
      rw [encode_of_map h ih, encodeChar_four four (by simpa using hb) (by simpa using hc)
        (by simpa using hd)]
      rfl
  | _ => cases h

/-- **Bytes that are read as a text are those of the text.** -/
theorem encode_decode {bytes : List UInt8} {s : List Char} (h : decode bytes = .ok s) :
    encode s = bytes :=
  encode_decodeFrom h

end RowFilter.Text.Utf8
