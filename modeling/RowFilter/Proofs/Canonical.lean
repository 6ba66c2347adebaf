import RowFilter.Proofs.DecimalLength
import RowFilter.Proofs.Shipping
import RowFilter.Proofs.Spelling

/-!
# Proofs.Canonical — writing a plan that was read

Any bytes that are read as a tree spell it, and its own encoding is at most twice as long, because
only decimals have more than one spelling.  So the encoding is countable and read back, as a tree with
the same literals but for the layout of decimals, and writing that tree gives the encoding again.
Without decimals there is nothing to choose, and the bytes start with the encoding
(`decoded_is_canonical`).
-/

namespace RowFilter

set_option autoImplicit false

namespace Value

def decimal? : Value → Option Decimal
  | decimal d => some d
  | _ => none

end Value

namespace Expr

/-- The decimals in the literals of the tree. -/
def decimals (e : Expr) : List Decimal := e.literals.filterMap (·.value.decimal?)

end Expr

namespace Plan

open Time (Instant)

/-! ## Spellings beside encodings -/

/-- The relation holds of equal bytes and of bytes put together from related parts. -/
structure Compatible (Q : Bytes → Bytes → Prop) : Prop where
  refl : ∀ a, Q a a
  append : ∀ {a b c d}, Q a b → Q c d → Q (a ++ c) (b ++ d)

section Compatible

variable {Q : Bytes → Bytes → Prop} {R : Value → Bytes → Prop}

theorem compatible_eq : Compatible (· = ·) where
  refl _ := rfl
  append := by
    rintro a _ c _ rfl rfl
    rfl

theorem compatible_length : Compatible fun a b => a.length ≤ 2 * b.length where
  refl a := by omega
  append := by
    intro a b c d first second
    rw [List.length_append, List.length_append]
    omega

theorem Compatible.behind (compatible : Compatible Q) (a : Bytes) {c d : Bytes} (h : Q c d) :
    Q (a ++ c) (a ++ d) :=
  compatible.append (compatible.refl a) h

theorem Compatible.flatten (compatible : Compatible Q) {es : List Expr} {parts : List Bytes}
    (h : List.Forall₂ (fun e b => Q (encode e) b) es parts) : Q (encodeItems es) parts.flatten := by
  induction h with
  | nil => exact compatible.refl []
  | cons first _ ih =>
      rw [encodeItems, List.flatten_cons]
      exact compatible.append first ih

/-- An encoding is related to every spelling of the tree where it is at the literals. -/
theorem related_of_spelled (compatible : Compatible Q) {root e : Expr} {b : Bytes}
    (literals : ∀ c ∈ root.literals, ∀ x, R c.value x →
      Q (encode (.literal c)) (choice shapes .literal ++ (columnType c.type ++ x)))
    (within : e ∈ root.nodes) (h : Spelled R e b) : Q (encode e) b := by
  -- The root stays while the induction goes down, so `literals` speaks of every literal on the way.
  induction e generalizing b with
  | literal c =>
      cases h with
      | literal spelled => exact literals c (Expr.mem_literals.mpr within) _ spelled
  | column c =>
      cases h
      exact compatible.refl _
  | nullTest test operand ih =>
      have operandIn := Expr.below_nullTest within
      cases h with
      | nullTest _ h =>
          rw [encode, List.append_assoc]
          exact compatible.behind _ (compatible.behind _ (ih operandIn h))
  | comparison c l r ihl ihr =>
      obtain ⟨leftIn, rightIn⟩ := Expr.below_comparison within
      cases h with
      | comparison _ left right =>
          rw [encode, List.append_assoc, List.append_assoc]
          refine compatible.behind _ (compatible.behind _ ?_)
          exact compatible.append (ihl leftIn left) (ihr rightIn right)
  | member negated p es ihp ihi =>
      obtain ⟨probeIn, itemsIn⟩ := Expr.below_member within
      cases h with
      | member _ probe few items =>
          rw [encode, List.append_assoc, List.append_assoc, List.append_assoc]
          refine compatible.behind _ (compatible.append (ihp probeIn probe) ?_)
          refine compatible.behind _ (compatible.append (compatible.flatten ?_) (compatible.refl _))
          exact Expr.forall₂_imp items fun e mem _ spelled => ihi e mem (itemsIn e mem) spelled
  | logic c l r ihl ihr =>
      obtain ⟨leftIn, rightIn⟩ := Expr.below_logic within
      cases h with
      | logic _ left right =>
          rw [encode, List.append_assoc, List.append_assoc]
          refine compatible.behind _ (compatible.behind _ ?_)
          exact compatible.append (ihl leftIn left) (ihr rightIn right)
  | not operand ih =>
      have operandIn := Expr.below_not within
      cases h with
      | not h => exact compatible.behind _ (ih operandIn h)

end Compatible

section Spelled

variable {e : Expr} {b : Bytes}

/-- A value that is no decimal has one spelling. -/
theorem value_of_spelled {v : Value} {x : Bytes} (h : SpelledValue v x) (none : v.decimal? = none) :
    value v = x := by
  cases v with
  | decimal d => cases none
  | string s | timestamp t => exact h.2.symm
  | _ => exact h.symm

theorem encode_of_spelled (none : e.decimals = []) (h : Spelled SpelledValue e b) :
    encode e = b := by
  refine related_of_spelled compatible_eq ?_ (Expr.self_mem_nodes e) h
  intro c mem x spelled
  have free : c.value.decimal? = Option.none := List.filterMap_eq_nil_iff.mp none c mem
  rw [encode, cell, value_of_spelled spelled free]

/-- The encoding of a literal is at most twice as long as any spelling of it. -/
theorem length_literal_le {c : Cell} {x : Bytes} (h : SpelledValue c.value x) :
    (encode (.literal c)).length ≤
      2 * (choice shapes .literal ++ (columnType c.type ++ x)).length := by
  simp only [encode, cell, columnType, List.length_append, length_choice]
  cases hv : c.value with
  | decimal d =>
      rw [hv] at h
      obtain ⟨s, read, -, rfl⟩ := h
      -- The twenty bytes by which the text may exceed twice its length are those in front of it.
      have written := Decimal.length_encode_text read
      simp only [value, content, List.length_append, length_choice, length_text,
        String.toList_ofList]
      omega
  | _ =>
      rw [hv] at h
      rw [value_of_spelled h rfl]
      omega

theorem length_encode_le_of_spelled (h : Spelled SpelledValue e b) :
    (encode e).length ≤ 2 * b.length :=
  related_of_spelled compatible_length (fun _ _ _ => length_literal_le) (Expr.self_mem_nodes e) h

end Spelled

/-! ## Nodes of spelled trees -/

section Nodes

variable {R : Value → Bytes → Prop} {e : Expr} {b : Bytes}

theorem child_spelled (h : Spelled R e b) {child : Expr} (mem : child ∈ e.children) :
    ∃ a, Spelled R child a := by
  cases h with
  | literal | column => cases mem
  | nullTest _ operand | not operand =>
      cases List.mem_singleton.mp mem
      exact ⟨_, operand⟩
  | comparison _ left right | logic _ left right =>
      rcases List.mem_pair.mp mem with rfl | rfl
      · exact ⟨_, left⟩
      · exact ⟨_, right⟩
  | member _ probe _ items =>
      rcases List.mem_cons.mp mem with rfl | mem
      · exact ⟨_, probe⟩
      · obtain ⟨i, lt, rfl⟩ := List.mem_iff_getElem.mp mem
        exact ⟨_, items.get lt (items.length_eq ▸ lt)⟩

/-- Every literal of a spelled tree is spelled somewhere. -/
theorem literal_spelled (h : Spelled R e b) {c : Cell} (mem : c ∈ e.literals) :
    ∃ x, R c.value x := by
  rw [Expr.mem_literals] at mem
  induction e using Expr.childInduction generalizing b with
  | step e ih =>
      rcases Expr.mem_nodes.mp mem with rfl | ⟨child, below, mem⟩
      · cases h with
        | literal spelled => exact ⟨_, spelled⟩
      · obtain ⟨a, spelled⟩ := child_spelled h below
        exact ih child below spelled mem

/-- Milliseconds are read as an instant that they stand for. -/
theorem millis_of_spelled (h : Spelled SpelledValue e b) {t : Instant} (mem : t ∈ e.instants) :
    Instant.ofEpochMillis? t.epochMillis = some t := by
  obtain ⟨c, literal, same⟩ := List.mem_filterMap.mp mem
  obtain ⟨x, spelled⟩ := literal_spelled h literal
  cases hv : c.value with
  | timestamp u =>
      rw [hv] at same spelled
      cases same
      exact spelled.1
  | _ =>
      rw [hv] at same
      cases same

end Nodes

/-! ## Writing again -/

section Again

variable {e e' : Expr}

/-- What is shipped for a cell has the bytes of the cell. -/
theorem cell_of_shipCell {c d : Cell} (h : shipCell c = .ok d) : cell d = cell c := by
  obtain ⟨w, shipped, rfl⟩ := map_eq_ok.mp h
  have same : value w = value c.value := by
    cases hv : c.value with
    | decimal x =>
        rw [hv] at shipped
        cases shipped
        simp only [value, content, Value.type, Decimal.text_settled]
    | timestamp t =>
        rw [hv] at shipped
        obtain ⟨u, hu, cut⟩ := ships_of_shipValue shipped
        rw [hu]
        simp only [value, content, Value.type, cut.epochMillis_eq]
    | _ =>
        rw [hv] at shipped
        cases shipped
        rfl
  simp only [cell, same]

/-- Alike trees whose literals have related bytes have related bytes. -/
theorem related_of_alike {Q : Bytes → Bytes → Prop} (compatible : Compatible Q)
    (h : e.Alike (fun c d => Q (cell d) (cell c)) e') : Q (encode e') (encode e) := by
  induction e generalizing e' with
  | literal c =>
      cases h with
      | literal related => exact compatible.behind _ related
  | column c =>
      cases h
      exact compatible.refl _
  | nullTest test operand ih =>
      cases h with
      | nullTest _ h => exact compatible.behind _ (ih h)
  | comparison c l r ihl ihr =>
      cases h with
      | comparison _ left right =>
          exact compatible.append (compatible.behind _ (ihl left)) (ihr right)
  | member negated probe items ihp ihi =>
      cases h with
      | member _ head rest =>
          have each := Expr.forall₂_imp rest fun item mem _ => ihi item mem
          have all := compatible.flatten (List.forall₂_map_right_iff.mpr each.flip)
          rw [encode, encode, ← rest.length_eq, encodeItems_eq items, List.flatMap_def]
          refine compatible.append (compatible.append ?_ all) (compatible.refl _)
          exact compatible.append (compatible.behind _ (ihp head)) (compatible.refl _)
  | logic c l r ihl ihr =>
      cases h with
      | logic _ left right =>
          exact compatible.append (compatible.behind _ (ihl left)) (ihr right)
  | not operand ih =>
      cases h with
      | not h => exact compatible.behind _ (ih h)

/-- A shipped tree has the bytes that it was read from. -/
theorem encode_ship (h : ship e = .ok e') : encode e' = encode e :=
  related_of_alike compatible_eq
    ((alike_shipCell h).imp (Expr.self_mem_nodes e) fun _ _ _ => cell_of_shipCell)

end Again

/-! ## Plans -/

/-- No byte string in memory is as long as this. -/
def addressable : Nat := 0x8000000000000000

/-- What is known of a tree that was read: its plan is countable and its instants are those of their
milliseconds. -/
theorem bounds_of_decode {bytes : Bytes} {e : Expr} (short : bytes.length < addressable)
    (decoded : decode bytes = .ok e) :
    (encode e).length < UInt64.size ∧
      ∀ t ∈ e.instants, Instant.ofEpochMillis? t.epochMillis = some t := by
  obtain ⟨taken, rest, rfl, spelled⟩ := spelled_of_decode decoded
  have twice := length_encode_le_of_spelled spelled
  rw [List.length_append, addressable] at short
  refine ⟨?_, fun t mem => millis_of_spelled spelled mem⟩
  simp only [UInt64.size]
  omega

/-- Such a tree is read back from its plan as the same tree. -/
theorem again_of_millis {e : Expr} (countable : (encode e).length < UInt64.size)
    (millis : ∀ t ∈ e.instants, Instant.ofEpochMillis? t.epochMillis = some t) :
    ∃ e', ship e = .ok e' ∧ decode (encode e) = .ok e' ∧ e.Alike Cell.Matches e' := by
  obtain ⟨e', shipped⟩ := ship_ok fun t mem => by rw [millis t mem]; rfl
  refine ⟨e', shipped, by rw [decode_encode countable, shipped], ?_⟩
  refine (alike_of_ship shipped).imp (Expr.self_mem_nodes e) fun c mem d ships => ?_
  exact ships.matches_of_whole fun t ht =>
    Instant.whole_of_millis (millis t (Expr.mem_instants mem ht))

/-- **Writing a tree that was read is canonical.**  Its plan is read back as the same tree, decimals
by their numbers, which has that plan again.  A tree without decimals has its plan at the start of all
bytes that it is read from. -/
theorem decoded_is_canonical {bytes : Bytes} {e : Expr} (short : bytes.length < addressable)
    (decoded : decode bytes = .ok e) :
    (∃ e', decode (encode e) = .ok e' ∧ e.Alike Cell.Matches e' ∧ encode e' = encode e) ∧
      (e.decimals = [] → ∀ other, decode other = .ok e → encode e <+: other) := by
  constructor
  · obtain ⟨countable, millis⟩ := bounds_of_decode short decoded
    obtain ⟨e', shipped, again, alike⟩ := again_of_millis countable millis
    exact ⟨e', again, alike, encode_ship shipped⟩
  · intro none other read
    obtain ⟨taken, rest, rfl, spelled⟩ := spelled_of_decode read
    rw [encode_of_spelled none spelled]
    exact List.prefix_append taken rest

/-- `+01.20e3`, which is not how a decimal is written, and a byte behind it. -/
def looseDecimal : Bytes :=
  choice shapes .literal ++ (columnType .decimal ++ (choice valueTypes .decimal ++
    text (String.ofList ['+', '0', '1', '.', '2', '0', 'e', '3']))) ++ [7]

/-- `NOT` a double that is not a number, with a payload. -/
def notNan : Expr := .not (.ofValue (.double ⟨0x7ff8000000000001⟩))

theorem looseDecimal_is_canonical :
    (∃ e e', decode looseDecimal = .ok e ∧ decode (encode e) = .ok e' ∧ e.Alike Cell.Matches e' ∧
        encode e' = encode e) ∧
      notNan.decimals = [] ∧ decode (encode notNan ++ [7]) = .ok notNan ∧
      encode notNan <+: encode notNan ++ [7] := by
  have loose : decode looseDecimal = .ok (.ofValue (.decimal ⟨120, -1⟩)) := by
    rfl
  have few : looseDecimal.length < addressable := by
    decide
  have behind : decode (encode notNan ++ [7]) = .ok notNan := by
    rfl
  obtain ⟨⟨e', again, alike, bytes⟩, -⟩ := decoded_is_canonical few loose
  refine ⟨⟨_, e', loose, again, alike, bytes⟩, rfl, behind, ?_⟩
  exact (decoded_is_canonical (by decide) behind).2 rfl _ behind

end Plan

end RowFilter
