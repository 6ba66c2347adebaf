import RowFilter.Proofs.Spelling

/-!
# Proofs.Torn — plans that are cut short or run on

Spellings of trees are prefix-free: none is a proper start of another, because every field either has
a fixed width or says before its content how long it is (`prefixFree_of_spelled`).  A plan is a
spelling of its tree, and whatever a reader takes is one too.  So a plan that is cut short is not read
as any tree, and bytes behind a plan change nothing (`plan_delimits_itself`).
-/

namespace RowFilter.Plan

set_option autoImplicit false

open RowFilter.Time (Instant)

/-- Neither of the two is a proper start of the other. -/
def PrefixFree (a b : Bytes) : Prop := ∀ x y, a ++ x = b ++ y → a = b

section PrefixFree

variable {a b c d : Bytes}

theorem prefixFree_of_length (h : a.length = b.length) : PrefixFree a b := fun _ _ same =>
  List.append_inj_left same h

/-- Behind equal parts the rest has to be prefix-free, and behind others anything may stand. -/
theorem PrefixFree.append (first : PrefixFree a b) (next : a = b → PrefixFree c d) :
    PrefixFree (a ++ c) (b ++ d) := by
  intro x y same
  rw [List.append_assoc, List.append_assoc] at same
  have equal := first _ _ same
  subst equal
  rw [next rfl x y (List.append_cancel_left same)]

/-- Parts of one length only put off the end. -/
theorem PrefixFree.behind (h : PrefixFree c d) (same : a.length = b.length) :
    PrefixFree (a ++ c) (b ++ d) :=
  (prefixFree_of_length same).append fun _ => h

theorem word_inj {width n m : Nat} (ltn : n < Nat.pow 256 width) (ltm : m < Nat.pow 256 width)
    (same : word width n = word width m) : n = m :=
  (same ▸ reads_word ltn).unique (reads_word ltm)

theorem prefixFree_word {n m : Nat} (ltn : n < UInt64.size) (ltm : m < UInt64.size)
    (next : n = m → PrefixFree c d) : PrefixFree (word 8 n ++ c) (word 8 m ++ d) :=
  (prefixFree_of_length (by simp only [length_word])).append fun same =>
    next (@word_inj 8 n m ltn ltm same)

theorem choice_inj {α : Type} [BEq α] [LawfulBEq α] {alternatives : List α} {s t : α}
    (few : alternatives.length < Nat.pow 256 4) (mems : s ∈ alternatives) (memt : t ∈ alternatives)
    (same : choice alternatives s = choice alternatives t) : s = t := by
  have reads : Reads (readVariant alternatives) (choice alternatives s) (.ok s) :=
    reads_choice mems few
  exact (same ▸ reads).unique (reads_choice memt few)

theorem prefixFree_types {s t : ColumnType} (next : s = t → PrefixFree c d) :
    PrefixFree (choice valueTypes s ++ c) (choice valueTypes t ++ d) :=
  (prefixFree_of_length (by simp only [length_choice])).append fun same =>
    next (choice_inj (by decide) (mem_valueTypes s) (mem_valueTypes t) same)

theorem prefixFree_shapes {s t : Shape} (different : s ≠ t) :
    PrefixFree (choice shapes s ++ c) (choice shapes t ++ d) :=
  (prefixFree_of_length (by simp only [length_choice])).append fun same =>
    absurd (choice_inj (by decide) (mem_shapes s) (mem_shapes t) same) different

theorem prefixFree_text {s t : String} (counts : Countable s) (countt : Countable t) :
    PrefixFree (text s) (text t) :=
  prefixFree_word counts countt prefixFree_of_length

theorem prefixFree_flatten {parts others : List Bytes} (h : List.Forall₂ PrefixFree parts others) :
    PrefixFree parts.flatten others.flatten := by
  induction h with
  | nil => exact prefixFree_of_length rfl
  | cons first _ ih => exact first.append fun _ => ih

end PrefixFree

/-! ## Values -/

/-- The content of a value of the type has the width of the type, or is a text. -/
def FramedContent : ColumnType → Bytes → Prop
  | .null, x => x.length = 0
  | .boolean, x => x.length = 1
  | .integer, x => x.length = 4
  | .long, x | .double, x | .timestamp, x => x.length = 8
  | .decimal, x | .string, x => ∃ s, Countable s ∧ x = text s

/-- The bytes are the number of a type and what may be the content of a value of it. -/
def Framed (v : Value) (bytes : Bytes) : Prop :=
  ∃ x, bytes = choice valueTypes v.type ++ x ∧ FramedContent v.type x

section Values

variable {v w : Value} {a b : Bytes}

theorem prefixFree_content {t : ColumnType} (ha : FramedContent t a) (hb : FramedContent t b) :
    PrefixFree a b := by
  cases t with
  | decimal | string =>
      obtain ⟨s, counts, rfl⟩ := ha
      obtain ⟨t, countt, rfl⟩ := hb
      exact prefixFree_text counts countt
  | _ => exact prefixFree_of_length (Eq.trans ha (Eq.symm hb))

theorem prefixFree_framed (ha : Framed v a) (hb : Framed w b) : PrefixFree a b := by
  obtain ⟨x, rfl, contentx⟩ := ha
  obtain ⟨y, rfl, contenty⟩ := hb
  refine prefixFree_types fun same => ?_
  rw [← same] at contenty
  exact prefixFree_content contentx contenty

theorem framed_value (countable : (value v).length < UInt64.size) : Framed v (value v) := by
  refine ⟨content v, rfl, ?_⟩
  rw [value, List.length_append] at countable
  cases v with
  | decimal d =>
      rw [content, length_text] at countable
      exact ⟨_, by rw [Countable]; omega, rfl⟩
  | string s =>
      rw [content, length_text] at countable
      exact ⟨s, by rw [Countable]; omega, rfl⟩
  | null | boolean => rfl
  | _ => exact length_word _ _

theorem framed_of_spelled (h : SpelledValue v a) : Framed v a := by
  cases v with
  | decimal d =>
      obtain ⟨s, -, countable, rfl⟩ := h
      exact ⟨text s, rfl, s, countable, rfl⟩
  | string s =>
      obtain ⟨countable, rfl⟩ := h
      exact ⟨text s, rfl, s, countable, rfl⟩
  | timestamp t =>
      obtain ⟨-, rfl⟩ := h
      exact ⟨_, rfl, length_word _ _⟩
  | null | boolean =>
      cases h
      exact ⟨_, rfl, rfl⟩
  | _ =>
      cases h
      exact ⟨_, rfl, length_word _ _⟩

end Values

/-! ## Trees -/

section Trees

theorem prefixFree_column {c d : Column} (countc : ∀ s ∈ c.name, Countable s)
    (countd : ∀ s ∈ d.name, Countable s) : PrefixFree (column c) (column d) := by
  have names : PrefixFree (optional text c.name) (optional text d.name) := by
    cases hc : c.name with
    | none =>
        cases hd : d.name with
        | none => exact prefixFree_of_length rfl
        | some t =>
            intro x y same
            cases same
    | some s =>
        cases hd : d.name with
        | none =>
            intro x y same
            cases same
        | some t => exact (prefixFree_text (countc s hc) (countd t hd)).behind (a := [1]) rfl
  refine names.behind ?_
  simp only [List.length_append, length_word, columnType, length_choice]

/-- The items of two lists of one length are prefix-free together where each two of them are. -/
theorem prefixFree_items {R S : Expr → Bytes → Prop} {es es' : List Expr} {parts others : List Bytes}
    (same : es.length = es'.length) (items : List.Forall₂ R es parts)
    (items' : List.Forall₂ S es' others)
    (each : ∀ e ∈ es, ∀ e' a b, R e a → S e' b → PrefixFree a b) :
    List.Forall₂ PrefixFree parts others := by
  induction items generalizing es' others with
  | nil =>
      cases items' with
      | nil => exact .nil
      | cons => simp at same
  | cons first _ ih =>
      rw [List.forall_mem_cons] at each
      cases items' with
      | nil => simp at same
      | cons first' rest' =>
          exact .cons (each.1 _ _ _ first first') (ih (Nat.succ.inj same) rest' each.2)

/-- **Spellings of trees are prefix-free.** -/
theorem prefixFree_of_spelled {R : Value → Bytes → Prop} (framed : ∀ v x, R v x → Framed v x)
    {e e' : Expr} {a b : Bytes} (h : Spelled R e a) (h' : Spelled Framed e' b) :
    PrefixFree a b := by
  -- A second tree of another shape differs from the first in the number of its root already.
  induction e generalizing e' a b with
  | literal c =>
      cases h with
      | literal value =>
          cases h' with
          | literal value' =>
              have values := prefixFree_framed (framed _ _ value) value'
              exact (values.behind (by simp only [columnType, length_choice])).behind rfl
          | _ => exact prefixFree_shapes (by decide)
  | column c =>
      cases h with
      | column countable =>
          cases h' with
          | column countable' => exact (prefixFree_column countable countable').behind rfl
          | _ => exact prefixFree_shapes (by decide)
  | nullTest test e ih =>
      cases h with
      | nullTest _ operand =>
          cases h' with
          | nullTest test' operand' =>
              have operands := ih operand operand'
              exact (operands.behind (by simp only [length_choice])).behind rfl
          | _ => exact prefixFree_shapes (by decide)
  | comparison c l r ihl ihr =>
      cases h with
      | comparison _ left right =>
          cases h' with
          | comparison c' left' right' =>
              have operands := (ihl left left').append fun _ => ihr right right'
              exact (operands.behind (by simp only [length_choice])).behind rfl
          | _ => exact prefixFree_shapes (by decide)
  | member negated p es ihp ihi =>
      cases h with
      | member _ probe few items =>
          cases h' with
          | member negated' probe' few' items' =>
              refine PrefixFree.behind ?_ rfl
              refine (ihp probe probe').append fun _ => prefixFree_word few few' fun same => ?_
              have all := prefixFree_items same items items' fun e mem _ _ _ spelled spelled' =>
                ihi e mem spelled spelled'
              exact (prefixFree_flatten all).append fun _ => prefixFree_of_length rfl
          | _ => exact prefixFree_shapes (by decide)
  | logic c l r ihl ihr =>
      cases h with
      | logic _ left right =>
          cases h' with
          | logic c' left' right' =>
              have operands := (ihl left left').append fun _ => ihr right right'
              exact (operands.behind (by simp only [length_choice])).behind rfl
          | _ => exact prefixFree_shapes (by decide)
  | not e ih =>
      cases h with
      | not operand =>
          cases h' with
          | not operand' => exact (ih operand operand').behind rfl
          | _ => exact prefixFree_shapes (by decide)

/-- The bytes of a tree are a spelling of it, where no length in them exceeds its word. -/
theorem spelled_encode {e : Expr} (countable : (encode e).length < UInt64.size) :
    Spelled Framed e (encode e) := by
  induction e with
  | literal c =>
      simp only [encode, cell, List.length_append] at countable ⊢
      exact .literal (framed_value (by omega))
  | column c =>
      rw [encode] at countable ⊢
      refine .column fun s name => ?_
      rw [List.length_append, column, List.length_append, show c.name = some s from name, optional,
        List.length_cons, length_text] at countable
      rw [Countable]
      omega
  | nullTest test e ih =>
      simp only [encode, List.length_append, List.append_assoc] at countable ⊢
      exact .nullTest test (ih (by omega))
  | comparison c l r ihl ihr =>
      simp only [encode, List.length_append, List.append_assoc] at countable ⊢
      exact .comparison c (ihl (by omega)) (ihr (by omega))
  | member negated p es ihp ihi =>
      simp only [encode, List.length_append, List.append_assoc] at countable ⊢
      -- No item is empty, so there are no more items than bytes.
      have few : es.length < UInt64.size :=
        Nat.lt_of_le_of_lt (length_le_encodeItems es) (by omega)
      have each : ∀ e ∈ es, Spelled Framed e (encode e) := fun e mem =>
        ihi e mem (Nat.lt_of_le_of_lt (length_encode_le_of_mem mem) (by omega))
      have items : List.Forall₂ (Spelled Framed) es (es.map encode) :=
        List.forall₂_map_right_iff.mpr (List.forall₂_same.mpr each)
      rw [encodeItems_eq, List.flatMap_def]
      exact .member negated (ihp (by omega)) few items
  | logic c l r ihl ihr =>
      simp only [encode, List.length_append, List.append_assoc] at countable ⊢
      exact .logic c (ihl (by omega)) (ihr (by omega))
  | not e ih =>
      simp only [encode, List.length_append] at countable ⊢
      exact .not (ih (by omega))

theorem eq_of_encode_prefix {R : Value → Bytes → Prop} (framed : ∀ v x, R v x → Framed v x)
    {e e' : Expr} {a rest : Bytes} (countable : (encode e).length < UInt64.size)
    (h : Spelled R e' a) (start : a ++ rest = encode e) : a = encode e := by
  refine prefixFree_of_spelled framed h (spelled_encode countable) rest [] ?_
  rw [start, List.append_nil]

end Trees

/-! ## Plans -/

theorem decode_encode_append {e : Expr} (countable : (encode e).length < UInt64.size)
    (rest : Bytes) : decode (encode e ++ rest) = decode (encode e) := by
  have long : (encode e).length ≤ (encode e ++ rest).length := by
    rw [List.length_append]
    exact Nat.le_add_right _ _
  rw [decode_encode countable, decode, reads_expr countable long rest]
  cases ship e <;> rfl

/-- A start of a plan that is read as a tree is the whole plan. -/
theorem whole_of_decode {e e' : Expr} {start rest : Bytes}
    (countable : (encode e).length < UInt64.size) (split : start ++ rest = encode e)
    (decoded : decode start = .ok e') : rest = [] := by
  obtain ⟨taken, left, rfl, spelled⟩ := spelled_of_decode decoded
  rw [List.append_assoc] at split
  have whole := eq_of_encode_prefix (fun _ _ => framed_of_spelled) countable spelled split
  rw [whole] at split
  have nothing : left = [] ∧ rest = [] := by simpa using split
  exact nothing.2

/-- **A plan says where it ends.**  Cut short it is no plan of any tree, bytes behind it change
nothing, and no plan is a proper start of another. -/
theorem plan_delimits_itself {e : Expr} (countable : (encode e).length < UInt64.size) :
    (∀ torn, torn <+: encode e → torn ≠ encode e → ∃ fault, decode torn = .error fault) ∧
      (∀ rest, decode (encode e ++ rest) = decode (encode e)) ∧
      ∀ other, encode other <+: encode e → encode other = encode e := by
  refine ⟨?_, decode_encode_append countable, ?_⟩
  · rintro torn ⟨rest, split⟩ short
    cases decoded : decode torn with
    | error fault => exact ⟨fault, rfl⟩
    | ok e' =>
        have nothing := whole_of_decode countable split decoded
        rw [nothing, List.append_nil] at split
        exact absurd split short
  · rintro other ⟨rest, split⟩
    have shorter : (encode other).length ≤ (encode e).length := by
      rw [← split, List.length_append]
      exact Nat.le_add_right _ _
    have spelled := spelled_encode (Nat.lt_of_le_of_lt shorter countable)
    exact eq_of_encode_prefix (fun _ _ => id) countable spelled split

/-- `dé IN (-1.5E-9, NULL) OR t < ts`. -/
def instantOr (t : Instant) : Expr :=
  .logic .or
    (.member false (.column ⟨0, .decimal, some (String.ofList ['d', 'é'])⟩)
      [.ofValue (.decimal ⟨-15, 10⟩), .null .integer])
    (.comparison .lessThan (.ofValue (.timestamp t)) (.column ⟨1, .timestamp, none⟩))

theorem length_encode_instantOr (t : Instant) : (encode (instantOr t)).length = 133 := by
  simp only [instantOr, Expr.ofValue, Expr.null, encode, encodeItems, cell, column, value, content,
    text, optional, Cell.of, Cell.null, String.toList_ofList]
  rfl

/-- The leap second after the last second of all, which has a plan and is not read back. -/
def lastLeap : Instant :=
  ⟨Time.lastSecond, Time.nanosPerSecond, by decide, by decide, by decide, by decide⟩

def leapOr : Expr := instantOr lastLeap

/-- The tree of an instant in the last second itself, which is read back. -/
def lastOr : Expr :=
  instantOr ⟨Time.lastSecond, 135000000, by decide, by decide, by decide, by decide⟩

theorem leapOr_delimits_itself :
    ((encode leapOr).length < UInt64.size ∧
      (encode leapOr).take 70 <+: encode leapOr ∧ (encode leapOr).take 70 ≠ encode leapOr ∧
      (∃ fault, decode ((encode leapOr).take 70) = .error fault) ∧
      decode (encode leapOr ++ [0]) = decode (encode leapOr) ∧
      decode (encode leapOr) = .error (.badInstant lastLeap.epochMillis)) ∧
    (encode lastOr).length < UInt64.size ∧
      (encode lastOr).take 132 <+: encode lastOr ∧ (encode lastOr).take 132 ≠ encode lastOr ∧
      (∃ fault, decode ((encode lastOr).take 132) = .error fault) ∧
      decode (encode lastOr) = .ok lastOr ∧ decode (encode lastOr ++ [0]) = .ok lastOr := by
  have countable : ∀ t, (encode (instantOr t)).length < UInt64.size := by
    intro t
    rw [length_encode_instantOr]
    decide
  have short : ∀ t n, n < 133 → (encode (instantOr t)).take n ≠ encode (instantOr t) := by
    intro t n lt same
    have lengths := congrArg List.length same
    rw [List.length_take, length_encode_instantOr] at lengths
    omega
  have refused : decode (encode leapOr) = .error (.badInstant lastLeap.epochMillis) :=
    decode_encode (countable _)
  have decoded : decode (encode lastOr) = .ok lastOr := decode_encode (countable _)
  obtain ⟨torn, behind, -⟩ := plan_delimits_itself (e := leapOr) (countable _)
  obtain ⟨torn', behind', -⟩ := plan_delimits_itself (e := lastOr) (countable _)
  have leapShort : (encode leapOr).take 70 ≠ encode leapOr := short _ 70 (by decide)
  have lastShort : (encode lastOr).take 132 ≠ encode lastOr := short _ 132 (by decide)
  exact ⟨⟨countable _, List.take_prefix 70 _, leapShort, torn _ (List.take_prefix 70 _) leapShort,
      behind [0], refused⟩,
    countable _, List.take_prefix 132 _, lastShort, torn' _ (List.take_prefix 132 _) lastShort,
    decoded, (behind' [0]).trans decoded⟩

end RowFilter.Plan
