import RowFilter.Proofs.Tree

/-!
# Proofs.Evaluation — taking evaluations apart

`Gives good bad x` says what `x` gives: a result with `good`, or a fault with `bad`.  It goes through
binds, so a statement about a tree follows the way the tree is evaluated.  The search of a membership
node is taken apart item by item (`searchBy_cons`).  Where things are done one after the other until one
fails, `FirstFault` says which fault that is.

The type of a result is decided by the root alone (`type_of_evaluate`): a literal and a column bring
their own, and every other node gives a truth value.
-/

namespace RowFilter

set_option autoImplicit false

/-! ## Outcomes -/

/-- A result with the one property or a fault with the other. -/
def Gives {ε α : Type} (good : α → Prop) (bad : ε → Prop) : Except ε α → Prop
  | .ok a => good a
  | .error fault => bad fault

section Outcomes

variable {ε α β : Type}

theorem bind_eq_ok {x : Except ε α} {f : α → Except ε β} {b : β} :
    x >>= f = .ok b ↔ ∃ a, x = .ok a ∧ f a = .ok b := by
  cases x <;> simp [bind, Except.bind]

theorem bind_eq_error {x : Except ε α} {f : α → Except ε β} {fault : ε} :
    x >>= f = .error fault ↔ x = .error fault ∨ ∃ a, x = .ok a ∧ f a = .error fault := by
  cases x <;> simp [bind, Except.bind]

theorem bind_congr_of_ok {x : Except ε α} {f g : α → Except ε β}
    (same : ∀ a, x = .ok a → f a = g a) : x >>= f = x >>= g := by
  cases x with
  | error fault => rfl
  | ok a => exact same a rfl

theorem map_eq_ok {x : Except ε α} {f : α → β} {b : β} :
    x.map f = .ok b ↔ ∃ a, x = .ok a ∧ f a = b := by
  cases x <;> simp [Except.map]

theorem map_eq_error {x : Except ε α} {f : α → β} {fault : ε} :
    x.map f = .error fault ↔ x = .error fault := by
  cases x <;> simp [Except.map]

theorem mapError_eq_ok {x : Except ε α} {f : ε → β} {a : α} :
    x.mapError f = .ok a ↔ x = .ok a := by
  constructor
  · intro h
    cases x <;> cases h
    rfl
  · rintro rfl
    rfl

theorem mapError_eq_error {δ : Type} {x : Except ε α} {f : ε → δ} {fault : δ} :
    x.mapError f = .error fault ↔ ∃ reason, x = .error reason ∧ f reason = fault := by
  constructor
  · intro h
    cases x with
    | error reason => exact ⟨reason, rfl, Except.error.inj h⟩
    | ok a => cases h
  · rintro ⟨reason, rfl, rfl⟩
    rfl

theorem mapError_bind {δ : Type} (x : Except ε α) (f : α → Except ε β) (g : ε → δ) :
    (x >>= f).mapError g = x.mapError g >>= fun a => (f a).mapError g := by
  cases x <;> rfl

theorem mapError_eq_mapError {δ : Type} {x y : Except ε α} {g : ε → δ} :
    x.mapError g = y.mapError g ↔
      (∃ a, x = .ok a ∧ y = .ok a) ∨
        ∃ fault other, x = .error fault ∧ y = .error other ∧ g fault = g other := by
  constructor
  · intro h
    cases x with
    | error fault =>
        cases y with
        | error other => exact .inr ⟨fault, other, rfl, rfl, Except.error.inj h⟩
        | ok _ => cases h
    | ok a =>
        cases y with
        | error _ => cases h
        | ok _ => exact .inl ⟨a, rfl, congrArg Except.ok (Except.ok.inj h).symm⟩
  · rintro (⟨a, rfl, rfl⟩ | ⟨fault, other, rfl, rfl, same⟩)
    · rfl
    · exact congrArg Except.error same

theorem error_iff_not_ok {x : Except ε α} : (∃ fault, x = .error fault) ↔ ¬ ∃ a, x = .ok a := by
  cases x <;> simp

variable {good : α → Prop} {bad : ε → Prop} {x : Except ε α}

theorem Gives.bind {good' : β → Prop} {f : α → Except ε β} (h : Gives good bad x)
    (next : ∀ a, x = .ok a → good a → Gives good' bad (f a)) : Gives good' bad (x >>= f) := by
  cases x with
  | error fault => exact h
  | ok a => exact next a rfl h

theorem Gives.map {good' : β → Prop} {f : α → β} (h : Gives good bad x)
    (next : ∀ a, good a → good' (f a)) : Gives good' bad (x.map f) := by
  cases x with
  | error fault => exact h
  | ok a => exact next a h

theorem Gives.imp {good' : α → Prop} {bad' : ε → Prop} (h : Gives good bad x)
    (results : ∀ a, good a → good' a) (faults : ∀ fault, bad fault → bad' fault) :
    Gives good' bad' x := by
  cases x with
  | error fault => exact faults fault h
  | ok a => exact results a h

theorem gives_iff :
    Gives good bad x ↔ (∃ a, x = .ok a ∧ good a) ∨ ∃ fault, x = .error fault ∧ bad fault := by
  cases x <;> simp [Gives]

end Outcomes

/-! ## Outcomes in a row -/

/-- The fault stands at some place among the outcomes, and all before that place are results. -/
def FirstFault {ε α : Type} (outcomes : List (Except ε α)) (fault : ε) : Prop :=
  ∃ i : Nat, outcomes[i]? = some (.error fault) ∧ ∀ j < i, ∃ a, outcomes[j]? = some (.ok a)

section FirstFault

variable {ε α : Type} {fault : ε}

theorem not_firstFault_nil : ¬ FirstFault ([] : List (Except ε α)) fault := by
  rintro ⟨i, found, -⟩
  cases found

theorem firstFault_cons {x : Except ε α} {outcomes : List (Except ε α)} :
    FirstFault (x :: outcomes) fault ↔
      x = .error fault ∨ (∃ a, x = .ok a) ∧ FirstFault outcomes fault := by
  constructor
  · rintro ⟨i, found, before⟩
    cases i with
    | zero => exact .inl (Option.some.inj found)
    | succ i =>
        obtain ⟨a, front⟩ := before 0 i.succ_pos
        exact .inr ⟨⟨a, Option.some.inj front⟩, i, found, fun j lt => before (j + 1) (by omega)⟩
  · rintro (rfl | ⟨⟨a, rfl⟩, i, found, before⟩)
    · exact ⟨0, rfl, fun j lt => absurd lt j.not_lt_zero⟩
    · refine ⟨i + 1, found, fun j lt => ?_⟩
      cases j with
      | zero => exact ⟨a, rfl⟩
      | succ j => exact before j (by omega)

end FirstFault

/-! ## Operands -/

namespace Cell

theorem logic_eq_bind (k : Connective) (l r : Cell) :
    logic k l r =
      operand k.kind l >>= fun a => operand k.kind r >>= fun b =>
        .ok (boolean ((a.bind fun x => b.map (k.apply x)).getD false)) := by
  unfold logic
  cases operand k.kind l with
  | error fault => rfl
  | ok a =>
      cases operand k.kind r with
      | error fault => rfl
      | ok b => cases a <;> cases b <;> rfl

theorem not_eq_map (c : Cell) :
    c.not = (operand .not c).map (fun o => boolean ((o.map (!·)).getD false)) := by
  unfold Cell.not
  cases operand .not c with
  | error fault => rfl
  | ok o => cases o <;> rfl

end Cell

theorem Row.fetch_eq_ok {row : Row} {i : UInt64} {v : Value} :
    row.fetch i = .ok v ↔ row[i.toNat]? = some v := by
  unfold Row.fetch
  cases row[i.toNat]? <;> simp

namespace Expr

/-! ## Membership nodes -/

section Search

variable {row : Row} {kind : Kind} {probe : Cell}

theorem searchBy_nil (s : Search) : searchBy row.fetch kind probe [] s = .ok s := by
  unfold searchBy
  rfl

theorem searchBy_cons (item : Expr) (more : List Expr) (s : Search) :
    searchBy row.fetch kind probe (item :: more) s =
      item.evaluate row >>= fun c => s.step kind probe c >>= fun next =>
        searchBy row.fetch kind probe more next := by
  simp only [searchBy, liftExcept_eq]
  rfl

end Search

theorem evaluate_member_of_ne_nil {items : List Expr} (ne : items ≠ []) (negated : Bool)
    (probe : Expr) (row : Row) :
    (member negated probe items).evaluate row =
      probe.evaluate row >>= fun a =>
        (searchBy row.fetch (memberKind negated) a items Search.start).map
          (fun s => Cell.boolean (s.outcome negated a)) := by
  obtain ⟨item, more, rfl⟩ := List.exists_cons_of_ne_nil ne
  exact evaluate_member negated probe item more row

/-! ## The type of a result -/

/-- The type of the results of a tree, by its root. -/
def tag : Expr → ColumnType
  | literal c => c.type
  | column c => c.type
  | _ => .boolean

theorem operands_of_logic {k : Connective} {l r a : Cell} (h : Cell.logic k l r = .ok a) :
    (∃ o, Cell.operand k.kind l = .ok o) ∧ (∃ o, Cell.operand k.kind r = .ok o) ∧
      ∃ b, a = Cell.boolean b := by
  simp only [Cell.logic_eq_bind, bind_eq_ok] at h
  obtain ⟨o, hl, p, hr, h⟩ := h
  cases h
  exact ⟨⟨o, hl⟩, ⟨p, hr⟩, _, rfl⟩

theorem operand_of_not {c a : Cell} (h : c.not = .ok a) :
    (∃ o, Cell.operand .not c = .ok o) ∧ ∃ b, a = Cell.boolean b := by
  rw [Cell.not_eq_map, map_eq_ok] at h
  obtain ⟨o, ho, rfl⟩ := h
  exact ⟨⟨o, ho⟩, _, rfl⟩

/-- A node that is no leaf evaluates to a truth value. -/
theorem truth_of_evaluate {e : Expr} {row : Row} {a : Cell} (h : e.evaluate row = .ok a) :
    (∃ c, e = literal c) ∨ (∃ c, e = column c) ∨ ∃ b, a = Cell.boolean b := by
  cases e with
  | literal c => exact .inl ⟨c, rfl⟩
  | column c => exact .inr (.inl ⟨c, rfl⟩)
  | nullTest test operand =>
      rw [evaluate_nullTest, map_eq_ok] at h
      obtain ⟨c, -, rfl⟩ := h
      exact .inr (.inr ⟨_, rfl⟩)
  | comparison c l r =>
      simp only [evaluate_comparison, bind_eq_ok, Cell.comparison, map_eq_ok] at h
      obtain ⟨-, -, -, -, -, -, rfl⟩ := h
      exact .inr (.inr ⟨_, rfl⟩)
  | member negated probe items =>
      by_cases ne : items = []
      · subst ne
        rw [evaluate_member_nil] at h
        cases h
      · simp only [evaluate_member_of_ne_nil ne, bind_eq_ok, map_eq_ok] at h
        obtain ⟨-, -, -, -, rfl⟩ := h
        exact .inr (.inr ⟨_, rfl⟩)
  | logic c l r =>
      simp only [evaluate_logic, bind_eq_ok] at h
      obtain ⟨_, -, _, -, h⟩ := h
      exact .inr (.inr (operands_of_logic h).2.2)
  | not operand =>
      simp only [evaluate_not, bind_eq_ok] at h
      obtain ⟨_, -, h⟩ := h
      exact .inr (.inr (operand_of_not h).2)

theorem ofColumn_eq_ok {c : Column} {v : Value} {a : Cell} :
    Cell.ofColumn c v = .ok a ↔ v.fits c.type = true ∧ a = ⟨c.type, v⟩ := by
  unfold Cell.ofColumn
  split
  · rename_i fits
    simp [fits, eq_comm]
  · rename_i misfit
    simp [misfit]

/-- A column gives what the row has at its place, if that is null or of its type. -/
theorem evaluate_column_eq_ok {c : Column} {row : Row} {a : Cell} :
    (column c).evaluate row = .ok a ↔
      ∃ v, row[c.index.toNat]? = some v ∧ v.fits c.type = true ∧ a = ⟨c.type, v⟩ := by
  simp only [evaluate_column, bind_eq_ok, Row.fetch_eq_ok, ofColumn_eq_ok]

theorem type_of_evaluate {e : Expr} {row : Row} {a : Cell} (h : e.evaluate row = .ok a) :
    a.type = e.tag := by
  cases e with
  | literal c =>
      rw [evaluate_literal] at h
      cases h
      rfl
  | column c =>
      obtain ⟨v, -, -, rfl⟩ := evaluate_column_eq_ok.mp h
      rfl
  | _ =>
      obtain ⟨c, same⟩ | ⟨c, same⟩ | ⟨b, rfl⟩ := truth_of_evaluate h
      · cases same
      · cases same
      · rfl

end Expr

end RowFilter
