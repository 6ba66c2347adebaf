import RowFilter.Proofs.Evaluation
import RowFilter.Proofs.RoundTrip

/-!
# Proofs.Spelling — what bytes are read as a plan

`Takes read P` is the converse of `Reads`: whenever the reader succeeds, on any bytes, it has taken a
start of them that `P` relates to what it gives.  It goes through binds too, and every field but a
decimal is taken from exactly the bytes that its writer gives.  `Spelled R e bytes` lays a tree out as
its encoding does, with each value spelled by bytes that `R` allows.  Reading takes a spelling of the
tree in which only a decimal may be written in more than one way (`spelled_of_decode`).
-/

namespace RowFilter.Plan

set_option autoImplicit false

open RowFilter.Time (Instant)

/-- Whenever the reader succeeds, it has taken a start of the bytes related to what it gives. -/
def Takes {α : Type} (read : Reader α) (P : α → Bytes → Prop) : Prop :=
  ∀ bytes rest a, read bytes = .ok (a, rest) → ∃ taken, bytes = taken ++ rest ∧ P a taken

section Takes

variable {α β : Type} {read : Reader α} {P : α → Bytes → Prop} {R : β → Bytes → Prop}

theorem takes_pure {a : α} (h : P a []) : Takes (pure a) P := by
  intro bytes rest b given
  cases given
  exact ⟨[], rfl, h⟩

theorem takes_throw (fault : Fault) : Takes (throw fault) P := by
  intro bytes rest a given
  cases given

theorem Takes.bind {f : α → Reader β} (h : Takes read P)
    (next : ∀ a taken, P a taken → Takes (f a) fun b more => R b (taken ++ more)) :
    Takes (read >>= f) R := by
  intro bytes rest b given
  obtain ⟨⟨a, middle⟩, first, second⟩ := bind_eq_ok.mp given
  obtain ⟨taken, rfl, related⟩ := h _ _ _ first
  obtain ⟨more, rfl, whole⟩ := next a taken related _ _ _ second
  exact ⟨taken ++ more, (List.append_assoc ..).symm, whole⟩

/-- A last field, and what is made of it. -/
theorem Takes.last {f : α → β} (h : Takes read P) (next : ∀ a taken, P a taken → R (f a) taken) :
    Takes (read >>= fun a => pure (f a)) R := by
  refine h.bind fun a taken related => takes_pure ?_
  rw [List.append_nil]
  exact next a taken related

end Takes

/-! ## Numbers -/

theorem takes_byte : Takes readByte fun b taken => taken = [b] := by
  intro bytes rest b given
  cases bytes with
  | nil => cases given
  | cons c more =>
      cases given
      exact ⟨[b], rfl, rfl⟩

theorem word_of_bytes (b : UInt8) (width n : Nat) :
    word (width + 1) (b.toNat + 256 * n) = b :: word width n := by
  have byte := b.toNat_lt
  have low : UInt8.ofNat (b.toNat + 256 * n) = b := by
    rw [← UInt8.toNat_inj, UInt8.toNat_ofNat']
    omega
  have high : (b.toNat + 256 * n) / 256 = n := by omega
  rw [word, low, high]

theorem takes_word (width : Nat) :
    Takes (readWord width) fun n taken => taken = word width n ∧ n < Nat.pow 256 width := by
  induction width with
  | zero => exact takes_pure ⟨rfl, Nat.one_pos⟩
  | succ width ih =>
      refine takes_byte.bind ?_
      rintro b _ rfl
      refine ih.last ?_
      rintro n _ ⟨rfl, lt⟩
      have byte := b.toNat_lt
      have power : Nat.pow 256 (width + 1) = Nat.pow 256 width * 256 := rfl
      exact ⟨(word_of_bytes b width n).symm, by omega⟩

theorem takes_choice {α : Type} [BEq α] [LawfulBEq α] {alternatives : List α}
    (nodup : alternatives.Nodup) :
    Takes (readVariant alternatives) fun a taken => taken = choice alternatives a := by
  refine (takes_word 4).bind ?_
  rintro n _ ⟨rfl, -⟩
  cases found : alternatives[n]? with
  | none => exact takes_throw _
  | some a =>
      obtain ⟨lt, rfl⟩ := List.getElem?_eq_some_iff.mp found
      refine takes_pure ?_
      rw [choice, nodup.idxOf_getElem, variant, List.append_nil]

theorem takes_boolean : Takes readBoolean fun b taken => taken = boolean b := by
  refine takes_byte.bind ?_
  rintro b _ rfl
  split
  · rename_i zero
    exact takes_pure (by rw [zero]; rfl)
  · split
    · rename_i one
      exact takes_pure (by rw [one]; rfl)
    · exact takes_throw _

/-! ## Texts -/

/-- The length of the text fits its word. -/
def Countable (s : String) : Prop := (Text.Utf8.encode s.toList).length < UInt64.size

theorem takes_bytes (n : Nat) : Takes (takeBytes n) fun x taken => taken = x ∧ x.length = n := by
  intro bytes rest x given
  simp only [takeBytes] at given
  split at given
  · cases given
  · rename_i long
    cases given
    exact ⟨bytes.take n, (List.take_append_drop n bytes).symm, rfl, by
      rw [List.length_take]
      omega⟩

theorem takes_text : Takes readText fun s taken => taken = text s ∧ Countable s := by
  refine (takes_word 8).bind ?_
  rintro n _ ⟨rfl, lt⟩
  refine (takes_bytes n).bind ?_
  rintro _ x ⟨rfl, rfl⟩
  cases decoded : Text.Utf8.decode x with
  | error fault => exact takes_throw _
  | ok s =>
      have written : Text.Utf8.encode (String.ofList s).toList = x := by
        rw [String.toList_ofList, Text.Utf8.encode_decode decoded]
      refine takes_pure ⟨?_, ?_⟩
      · rw [text, written, List.append_nil]
      · rw [Countable, written]
        exact lt

/-! ## Optional fields and lists -/

section Compound

variable {α : Type} {read : Reader α} {P : α → Bytes → Prop}

/-- What stands for an optional field whose content is spelled as given. -/
inductive OptionSpelled (P : α → Bytes → Prop) : Option α → Bytes → Prop where
  | none : OptionSpelled P none [0]
  | some {a : α} {bytes : Bytes} (content : P a bytes) : OptionSpelled P (some a) (1 :: bytes)

theorem takes_optional (h : Takes read P) : Takes (readOptional read) (OptionSpelled P) := by
  refine takes_byte.bind ?_
  rintro b _ rfl
  split
  · rename_i zero
    subst zero
    exact takes_pure .none
  · split
    · rename_i one
      subst one
      exact h.last fun a taken content => .some content
    · exact takes_throw _

theorem takes_many (h : Takes read P) (n : Nat) :
    Takes (readMany read n) fun items taken =>
      ∃ parts, taken = parts.flatten ∧ List.Forall₂ P items parts ∧ items.length = n := by
  induction n with
  | zero => exact takes_pure ⟨[], rfl, .nil, rfl⟩
  | succ n ih =>
      refine h.bind ?_
      intro a taken first
      refine ih.last ?_
      rintro items _ ⟨parts, rfl, rest, rfl⟩
      exact ⟨taken :: parts, rfl, .cons first rest, rfl⟩

end Compound

/-! ## Values -/

/-- The bytes spell the value: they are its own, but a decimal may have any text that is read as it.
An instant is one that its milliseconds stand for. -/
def SpelledValue : Value → Bytes → Prop
  | .decimal d, bytes =>
    ∃ s : String, Decimal.read s.toList = .ok d ∧ Countable s ∧
      bytes = choice valueTypes .decimal ++ text s
  | .string s, bytes => Countable s ∧ bytes = value (.string s)
  | .timestamp t, bytes =>
    Instant.ofEpochMillis? t.epochMillis = some t ∧ bytes = value (.timestamp t)
  | v, bytes => bytes = value v

section Values

theorem takes_decimal :
    Takes readDecimal fun d taken =>
      ∃ s : String, Decimal.read s.toList = .ok d ∧ Countable s ∧ taken = text s := by
  refine takes_text.bind ?_
  rintro s _ ⟨rfl, countable⟩
  cases read : Decimal.read s.toList with
  | error fault => exact takes_throw _
  | ok d => exact takes_pure ⟨s, read, countable, List.append_nil _⟩

theorem takes_instant :
    Takes readInstant fun t taken => Instant.ofEpochMillis? t.epochMillis = some t ∧
      taken = word 8 (Int64.ofInt t.epochMillis).toUInt64.toNat := by
  refine (takes_word 8).bind ?_
  rintro n _ ⟨rfl, lt⟩
  simp only
  cases found : Instant.ofEpochMillis? (UInt64.ofNat n).toInt64.toInt with
  | none => exact takes_throw _
  | some t =>
      have millis := Instant.epochMillis_of_millis found
      have back : (UInt64.ofNat n).toNat = n := UInt64.toNat_ofNat_of_lt lt
      refine takes_pure ⟨by rw [millis, found], ?_⟩
      rw [millis, Int64.ofInt_toInt, UInt64.toUInt64_toInt64, back, List.append_nil]

theorem takes_value : Takes readValue SpelledValue := by
  refine (takes_choice (by decide)).bind ?_
  rintro t _ rfl
  cases t with
  | null => exact takes_pure rfl
  | boolean =>
      refine takes_boolean.last ?_
      rintro b _ rfl
      rfl
  | integer =>
      refine (takes_word 4).last ?_
      rintro n _ ⟨rfl, lt⟩
      have back : (UInt32.ofNat n).toNat = n := UInt32.toNat_ofNat_of_lt lt
      simp only [SpelledValue, value, content, UInt32.toUInt32_toInt32, back]
      rfl
  | long =>
      refine (takes_word 8).last ?_
      rintro n _ ⟨rfl, lt⟩
      have back : (UInt64.ofNat n).toNat = n := UInt64.toNat_ofNat_of_lt lt
      simp only [SpelledValue, value, content, UInt64.toUInt64_toInt64, back]
      rfl
  | double =>
      refine (takes_word 8).last ?_
      rintro n _ ⟨rfl, lt⟩
      have back : (UInt64.ofNat n).toNat = n := UInt64.toNat_ofNat_of_lt lt
      simp only [SpelledValue, value, content, back]
      rfl
  | decimal =>
      refine takes_decimal.last ?_
      rintro d _ ⟨s, read, countable, rfl⟩
      exact ⟨s, read, countable, rfl⟩
  | string =>
      refine takes_text.last ?_
      rintro s _ ⟨rfl, countable⟩
      exact ⟨countable, rfl⟩
  | timestamp =>
      refine takes_instant.last ?_
      rintro t _ ⟨kept, rfl⟩
      exact ⟨kept, rfl⟩

end Values

/-! ## Leaves -/

section Leaves

theorem takes_columnType : Takes readColumnType fun t taken => taken = columnType t :=
  takes_choice (by decide)

theorem takes_cell :
    Takes readCell fun c taken => ∃ v, taken = columnType c.type ++ v ∧ SpelledValue c.value v := by
  refine takes_columnType.bind ?_
  rintro t _ rfl
  exact takes_value.last fun v taken spelled => ⟨taken, rfl, spelled⟩

theorem takes_column :
    Takes readColumn fun c taken => taken = column c ∧ ∀ s ∈ c.name, Countable s := by
  refine (takes_word 8).bind ?_
  rintro n _ ⟨rfl, lt⟩
  refine takes_columnType.bind ?_
  rintro t _ rfl
  have back : (UInt64.ofNat n).toNat = n := UInt64.toNat_ofNat_of_lt lt
  refine (takes_optional takes_text).last ?_
  intro name taken spelled
  rw [column, back, List.append_assoc]
  cases spelled with
  | none => exact ⟨rfl, by simp⟩
  | some content =>
      obtain ⟨rfl, countable⟩ := content
      refine ⟨rfl, ?_⟩
      rintro s ⟨⟩
      exact countable

end Leaves

/-! ## Trees -/

/-- The bytes lay the tree out as its encoding does, with each value spelled by bytes that are
allowed for it. -/
inductive Spelled (R : Value → Bytes → Prop) : Expr → Bytes → Prop where
  | literal {c : Cell} {v : Bytes} (value : R c.value v) :
    Spelled R (.literal c) (choice shapes .literal ++ (columnType c.type ++ v))
  | column {c : Column} (countable : ∀ s ∈ c.name, Countable s) :
    Spelled R (.column c) (choice shapes .column ++ column c)
  | nullTest (test : NullTest) {e : Expr} {b : Bytes} (operand : Spelled R e b) :
    Spelled R (.nullTest test e) (choice shapes .nullTest ++ (choice nullTests test ++ b))
  | comparison (c : Comparator) {l r : Expr} {a b : Bytes} (left : Spelled R l a)
    (right : Spelled R r b) :
    Spelled R (.comparison c l r)
      (choice shapes .comparison ++ (choice comparators c ++ (a ++ b)))
  | member (negated : Bool) {p : Expr} {es : List Expr} {a : Bytes} {parts : List Bytes}
    (probe : Spelled R p a) (few : es.length < UInt64.size)
    (items : List.Forall₂ (Spelled R) es parts) :
    Spelled R (.member negated p es)
      (choice shapes .member ++ (a ++ (word 8 es.length ++ (parts.flatten ++ boolean negated))))
  | logic (c : Connective) {l r : Expr} {a b : Bytes} (left : Spelled R l a)
    (right : Spelled R r b) :
    Spelled R (.logic c l r) (choice shapes .logic ++ (choice connectives c ++ (a ++ b)))
  | not {e : Expr} {b : Bytes} (operand : Spelled R e b) :
    Spelled R (.not e) (choice shapes .not ++ b)

theorem takes_expr (depth : Nat) : Takes (readExpr depth) (Spelled SpelledValue) := by
  -- The reader goes down with the depth that it has left, and every node costs one.
  induction depth with
  | zero => exact takes_throw _
  | succ depth ih =>
      rw [readExpr]
      refine (takes_choice (by decide)).bind ?_
      rintro shape _ rfl
      cases shape with
      | literal =>
          refine takes_cell.last ?_
          rintro c _ ⟨v, rfl, spelled⟩
          exact .literal spelled
      | column =>
          refine takes_column.last ?_
          rintro c _ ⟨rfl, countable⟩
          exact .column countable
      | nullTest =>
          refine (takes_choice (by decide)).bind ?_
          rintro test _ rfl
          exact ih.last fun e b operand => .nullTest test operand
      | comparison =>
          refine (takes_choice (by decide)).bind ?_
          rintro c _ rfl
          refine ih.bind ?_
          intro l a left
          exact ih.last fun r b right => .comparison c left right
      | member =>
          refine ih.bind ?_
          intro p a probe
          refine (takes_word 8).bind ?_
          rintro n _ ⟨rfl, few⟩
          refine (takes_many ih n).bind ?_
          rintro es _ ⟨parts, rfl, items, rfl⟩
          refine takes_boolean.last ?_
          rintro negated _ rfl
          exact .member negated probe few items
      | logic =>
          refine (takes_choice (by decide)).bind ?_
          rintro c _ rfl
          refine ih.bind ?_
          intro l a left
          exact ih.last fun r b right => .logic c left right
      | not => exact ih.last fun e b operand => .not operand

/-- **Bytes that are read as a tree start with a spelling of it.** -/
theorem spelled_of_decode {bytes : Bytes} {e : Expr} (h : decode bytes = .ok e) :
    ∃ taken rest, bytes = taken ++ rest ∧ Spelled SpelledValue e taken := by
  obtain ⟨⟨e, rest⟩, read, rfl⟩ := map_eq_ok.mp h
  obtain ⟨taken, split, spelled⟩ := takes_expr bytes.length _ _ _ read
  exact ⟨taken, rest, split, spelled⟩

end RowFilter.Plan
