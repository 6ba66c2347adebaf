import RowFilter.Filter
import RowFilter.Proofs.Evaluation
import Mathlib.Data.List.Forall2
import Mathlib.Data.List.Sort

/-!
# Proofs.Selection — the numbers of the rows kept

Rows behind the first are numbered from one more, so a selection is made of the decision on the first
row and the selection from the others (`select_cons`).  Where all rows are decided, the numbers selected
are those of the rows that the decision keeps, and increasing, which says all about them
(`select_eq_ok_iff`).  Otherwise the selection ends with the fault of the first row that is not decided
(`select_eq_error_iff`).  So rows may be selected from in batches, if the numbers of a batch are moved up
by the rows before it (`select_append`).
-/

namespace RowFilter.Filter

set_option autoImplicit false

variable {f : Filter}

theorem selectFrom_succ (n : Nat) (rows : List Row) :
    f.selectFrom (n + 1) rows = (f.selectFrom n rows).map (List.map (· + 1)) := by
  induction rows generalizing n with
  | nil => rfl
  | cons row more ih =>
      simp only [selectFrom]
      cases f.keeps row with
      | error fault => rfl
      | ok kept =>
          cases kept with
          | false => exact ih (n + 1)
          | true =>
              simp only [ih (n + 1)]
              cases f.selectFrom (n + 1) more <;> rfl

theorem select_cons (row : Row) (rows : List Row) :
    f.select (row :: rows) =
      f.keeps row >>= fun kept =>
        (f.select rows).map fun numbers => (if kept then [0] else []) ++ numbers.map (· + 1) := by
  simp only [select, selectFrom]
  cases f.keeps row with
  | error fault => rfl
  | ok kept =>
      cases kept <;> simp only [selectFrom_succ 0] <;> cases f.selectFrom 0 rows <;> rfl

/-- Items whose rows are all decided: those chosen stand at the numbers selected. -/
theorem select_of_decided {α : Type} {items : List α} {rows : List Row} {choose : α → Bool}
    (decided : List.Forall₂ (fun item row => f.keeps row = .ok (choose item)) items rows) :
    ∃ numbers, f.select rows = .ok numbers ∧
      numbers.filterMap (items[·]?) = items.filter choose := by
  induction decided with
  | nil => exact ⟨[], rfl, rfl⟩
  | @cons item row items rows first rest ih =>
      obtain ⟨numbers, selected, picked⟩ := ih
      have all : f.select (row :: rows) =
          .ok ((if choose item then [0] else []) ++ numbers.map (· + 1)) := by
        rw [select_cons, first, selected]
        rfl
      refine ⟨_, all, ?_⟩
      rw [List.filterMap_append, List.filterMap_map, List.filter_cons]
      have behind : numbers.filterMap ((fun i => (item :: items)[i]?) ∘ (· + 1)) =
          items.filter choose := by
        simpa [Function.comp_def] using picked
      rw [behind]
      cases choose item <;> rfl

/-! ## Which numbers are selected -/

/-- All rows are decided, and the numbers are those of the rows kept, in their order. -/
structure Selects (f : Filter) (rows : List Row) (numbers : List Nat) : Prop where
  decided : ∀ row ∈ rows, ∃ kept, f.keeps row = .ok kept
  increasing : numbers.Pairwise (· < ·)
  mem_iff : ∀ i, i ∈ numbers ↔ ∃ row, rows[i]? = some row ∧ f.keeps row = .ok true

section Selects

variable {rows : List Row} {numbers : List Nat}

theorem select_cons_eq_ok {row : Row} :
    f.select (row :: rows) = .ok numbers ↔
      ∃ kept, f.keeps row = .ok kept ∧ ∃ rest, f.select rows = .ok rest ∧
        numbers = (if kept then [0] else []) ++ rest.map (· + 1) := by
  simp only [select_cons, bind_eq_ok, map_eq_ok, eq_comm (a := numbers)]

theorem Selects.cons {row : Row} {kept : Bool} (first : f.keeps row = .ok kept)
    (rest : f.Selects rows numbers) :
    f.Selects (row :: rows) ((if kept then [0] else []) ++ numbers.map (· + 1)) where
  decided := List.forall_mem_cons.mpr ⟨⟨kept, first⟩, rest.decided⟩
  increasing := by
    have later : (numbers.map (· + 1)).Pairwise (· < ·) :=
      List.pairwise_map.mpr (rest.increasing.imp Nat.succ_lt_succ)
    cases kept with
    | false => exact later
    | true => exact List.pairwise_cons.mpr ⟨by simp, later⟩
  mem_iff i := by
    cases i with
    | zero => cases kept <;> simp [first]
    | succ i => cases kept <;> simp [rest.mem_iff]

/-- Filters that decide the same rows and keep the same ones select the same numbers. -/
theorem Selects.congr {g : Filter} (h : f.Selects rows numbers)
    (decided : ∀ row, (∃ kept, f.keeps row = .ok kept) ↔ ∃ kept, g.keeps row = .ok kept)
    (kept : ∀ row, f.keeps row = .ok true ↔ g.keeps row = .ok true) : g.Selects rows numbers where
  decided row mem := (decided row).mp (h.decided row mem)
  increasing := h.increasing
  mem_iff i := by simp only [h.mem_iff, kept]

theorem selects_of_select (h : f.select rows = .ok numbers) : f.Selects rows numbers := by
  induction rows generalizing numbers with
  | nil =>
      cases h
      exact ⟨by simp, .nil, by simp⟩
  | cons row rows ih =>
      obtain ⟨kept, first, rest, behind, rfl⟩ := select_cons_eq_ok.mp h
      exact (ih behind).cons first

theorem select_ok_iff :
    (∃ numbers, f.select rows = .ok numbers) ↔ ∀ row ∈ rows, ∃ kept, f.keeps row = .ok kept := by
  constructor
  · rintro ⟨numbers, h⟩
    exact (selects_of_select h).decided
  · intro decided
    induction rows with
    | nil => exact ⟨[], rfl⟩
    | cons row rows ih =>
        rw [List.forall_mem_cons] at decided
        obtain ⟨kept, first⟩ := decided.1
        obtain ⟨rest, behind⟩ := ih decided.2
        exact ⟨_, select_cons_eq_ok.mpr ⟨kept, first, rest, behind, rfl⟩⟩

theorem select_eq_ok_iff : f.select rows = .ok numbers ↔ f.Selects rows numbers := by
  constructor
  · exact selects_of_select
  · intro h
    obtain ⟨others, selected⟩ := select_ok_iff.mpr h.decided
    have again := selects_of_select selected
    have same : others = numbers := again.increasing.eq_of_mem_iff h.increasing fun i => by
      rw [again.mem_iff, h.mem_iff]
    rw [selected, same]

end Selects

/-! ## Faults and batches -/

/-- The first row that is not decided is at fault. -/
theorem select_eq_error_iff {rows : List Row} {fault : Fault} :
    f.select rows = .error fault ↔ FirstFault (rows.map f.keeps) fault := by
  induction rows with
  | nil => exact iff_of_false (fun failed => nomatch failed) not_firstFault_nil
  | cons row rows ih =>
      rw [select_cons, bind_eq_error, List.map_cons, firstFault_cons, ← ih]
      simp only [map_eq_error, exists_and_right]

/-- A selection goes on behind rows as it would from the start, with higher numbers. -/
theorem select_append (first rest : List Row) :
    f.select (first ++ rest) =
      f.select first >>= fun numbers =>
        (f.select rest).map fun more => numbers ++ more.map (first.length + ·) := by
  induction first with
  | nil =>
      show f.select rest = (f.select rest).map fun more => [] ++ more.map (0 + ·)
      cases f.select rest with
      | error fault => rfl
      | ok more => simp [Except.map]
  | cons row first ih =>
      rw [List.cons_append, select_cons, select_cons, ih]
      -- A fault ends both sides at the same step: the row, the rows up to the rest, the rest.
      cases f.keeps row with
      | error fault => rfl
      | ok kept =>
          cases f.select first with
          | error fault => rfl
          | ok numbers =>
              cases f.select rest with
              | error fault => rfl
              | ok more =>
                  have moved : more.map ((· + 1) ∘ (first.length + ·)) =
                      more.map (first.length + 1 + ·) :=
                    List.map_congr_left fun i _ => Nat.add_right_comm first.length i 1
                  apply congrArg Except.ok
                  simp only [List.map_append, List.map_map, moved, List.append_assoc, List.length_cons]

/-- **A selection is a scan of the rows.**  It succeeds where every row is decided, with the numbers of
the rows kept in increasing order, and otherwise fails with the fault of the first row that is not
decided.  With more rows behind, it goes on with the selection from these, moved up by the rows before. -/
theorem selection_scans_rows (f : Filter) :
    (∀ rows, (∃ numbers, f.select rows = .ok numbers) ↔
      ∀ row ∈ rows, ∃ kept, f.keeps row = .ok kept) ∧
      (∀ rows numbers, f.select rows = .ok numbers ↔ f.Selects rows numbers) ∧
      (∀ rows fault, f.select rows = .error fault ↔ FirstFault (rows.map f.keeps) fault) ∧
      ∀ first rest,
        (∀ numbers, f.select first = .ok numbers →
          f.select (first ++ rest) =
            (f.select rest).map fun more => numbers ++ more.map (first.length + ·)) ∧
        ∀ fault, f.select first = .error fault → f.select (first ++ rest) = .error fault := by
  refine ⟨fun rows => select_ok_iff, fun rows numbers => select_eq_ok_iff,
    fun rows fault => select_eq_error_iff, fun first rest => ⟨?_, ?_⟩⟩
  · intro numbers selected
    rw [select_append, selected]
    rfl
  · intro fault failed
    rw [select_append, failed]
    rfl

/-- `#0 > 10` over texts. -/
def textAboveTen : Filter :=
  ⟨.comparison .greaterThan (.column ⟨0, .string, none⟩) (.ofValue (.integer 10))⟩

/-- A higher number, no text, and a lower number. -/
def threeTexts : List Row := [[.string "25"], [.null], [.string "9"]]

/-- Two batches behind the three texts.  In the second two rows are no numbers. -/
theorem textAboveTen_in_batches :
    textAboveTen.select threeTexts = .ok [0] ∧
      textAboveTen.select (threeTexts ++ [[.string "8"], [.string "11"]]) = .ok [0, 4] ∧
      textAboveTen.select (threeTexts ++ [[.string "12"], [.string "x"], [.string "y"]]) =
        .error (.unsupported (.node .greaterThan)
          (.coercion (.cannotConvert (.string "x") .integer))) := by
  have selected : textAboveTen.select threeTexts = .ok [0] := rfl
  obtain ⟨-, -, -, batches⟩ := selection_scans_rows textAboveTen
  exact ⟨selected, (batches threeTexts _).1 _ selected, (batches threeTexts _).1 _ selected⟩

end RowFilter.Filter
