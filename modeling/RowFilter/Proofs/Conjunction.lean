import RowFilter.Proofs.Selection
import Mathlib.Data.List.Perm.Basic

/-!
# Proofs.Conjunction — a conjunction keeps what all its filters keep

A connective takes a null for no truth value and a filter takes it for false, and for a conjunction this
comes to the same: what a filter makes of the root of `l AND r` it could make of the roots of `l` and `r`
one by one (`keeps_and_eq_ok`).  From the last filter to the first this holds of a conjunction of any
number, so its selection is the intersection of theirs and their order does not matter to it.
-/

namespace RowFilter

set_option autoImplicit false

namespace Expr

/-- What holds of a conjunction as it holds of both sides holds of one of many as it holds of all. -/
theorem conjunction_iff {Q : Expr → Prop} (both : ∀ l r, Q (and l r) ↔ Q l ∧ Q r) {ps : List Expr}
    {whole : Expr} (h : conjunction? ps = some whole) : Q whole ↔ ∀ p ∈ ps, Q p := by
  cases ps with
  | nil => cases h
  | cons e more =>
      cases h
      -- The fold puts the next filter to what it has already joined, so that is left arbitrary.
      induction more generalizing e with
      | nil => simp
      | cons next more ih => simp only [List.foldl_cons, ih, List.forall_mem_cons, both, and_assoc]

theorem exists_conjunction {ps : List Expr} (ne : ps ≠ []) : ∃ whole, conjunction? ps = some whole := by
  obtain ⟨e, more, rfl⟩ := List.exists_cons_of_ne_nil ne
  exact ⟨_, rfl⟩

theorem exists_mem_of_conjunction {ps : List Expr} {whole : Expr} (h : conjunction? ps = some whole) :
    ∃ p, p ∈ ps := by
  cases ps with
  | nil => cases h
  | cons e more => exact ⟨e, List.mem_cons_self⟩

end Expr

namespace Filter

open RowFilter.Expr (conjunction? conjunction_iff exists_conjunction exists_mem_of_conjunction)

/-! ## Two filters -/

section Both

variable {row : Row} {l r : Expr} {b : Bool}

/-- A filter decides as a connective takes its operand, a null being false. -/
theorem decide_eq_ok (root kind : Kind) {c : Cell} :
    decide root c = .ok b ↔ ∃ o, Cell.operand kind c = .ok o ∧ o.getD false = b := by
  unfold decide Cell.operand
  cases c.value <;> simp

theorem keeps_eq_ok (kind : Kind) {e : Expr} :
    (mk e).keeps row = .ok b ↔
      ∃ c, e.evaluate row = .ok c ∧ ∃ o, Cell.operand kind c = .ok o ∧ o.getD false = b := by
  unfold keeps
  cases e.evaluate row with
  | error fault => simp
  | ok c => simp [decide_eq_ok _ kind]

theorem keeps_and_eq_ok :
    (mk (.and l r)).keeps row = .ok b ↔
      ∃ x y, (mk l).keeps row = .ok x ∧ (mk r).keeps row = .ok y ∧ b = (x && y) := by
  have joined : ∀ o p : Option Bool,
      (o.bind fun x => p.map (Connective.and.apply x)).getD false = (o.getD false && p.getD false) := by
    rintro (_ | x) (_ | y) <;> simp [Connective.apply]
  simp only [keeps_eq_ok .and, Expr.and, Expr.evaluate_logic, Cell.logic_eq_bind, bind_eq_ok]
  constructor
  · rintro ⟨_, ⟨a, ha, c, hc, o, ho, p, hp, result⟩, _, truth, rfl⟩
    cases result
    cases truth
    exact ⟨_, _, ⟨a, ha, o, ho, rfl⟩, ⟨c, hc, p, hp, rfl⟩, joined o p⟩
  · rintro ⟨_, _, ⟨a, ha, o, ho, rfl⟩, ⟨c, hc, p, hp, rfl⟩, rfl⟩
    exact ⟨_, ⟨a, ha, c, hc, o, ho, p, hp, rfl⟩, _, rfl, joined o p⟩

theorem keeps_and_iff :
    (mk (.and l r)).keeps row = .ok true ↔
      (mk l).keeps row = .ok true ∧ (mk r).keeps row = .ok true := by
  simp [keeps_and_eq_ok, eq_comm (a := true)]

theorem decides_and_iff :
    (∃ b, (mk (.and l r)).keeps row = .ok b) ↔
      (∃ x, (mk l).keeps row = .ok x) ∧ ∃ y, (mk r).keeps row = .ok y := by
  simp only [keeps_and_eq_ok]
  constructor
  · rintro ⟨_, x, y, hx, hy, -⟩
    exact ⟨⟨x, hx⟩, y, hy⟩
  · rintro ⟨⟨x, hx⟩, y, hy⟩
    exact ⟨_, x, y, hx, hy, rfl⟩

end Both

/-! ## Any number of filters -/

/-- On the row the tree decides as the filters do together: it keeps the row if all of them keep it,
fails if one of them fails, and leaves the row out otherwise. -/
structure Joins (row : Row) (ps : List Expr) (whole : Expr) : Prop where
  keeps : (mk whole).keeps row = .ok true ↔ ∀ p ∈ ps, (mk p).keeps row = .ok true
  fails : (∃ fault, (mk whole).keeps row = .error fault) ↔
    ∃ p ∈ ps, ∃ fault, (mk p).keeps row = .error fault
  leaves : (mk whole).keeps row = .ok false ↔
    ¬ (∀ p ∈ ps, (mk p).keeps row = .ok true) ∧ ¬ ∃ p ∈ ps, ∃ fault, (mk p).keeps row = .error fault

section All

variable {row : Row} {rows : List Row} {ps ps' : List Expr} {whole whole' : Expr} {numbers : List Nat}

theorem decides_conjunction_iff (h : conjunction? ps = some whole) :
    (∃ b, (mk whole).keeps row = .ok b) ↔ ∀ p ∈ ps, ∃ b, (mk p).keeps row = .ok b :=
  conjunction_iff (Q := fun e => ∃ b, (mk e).keeps row = .ok b) (fun _ _ => decides_and_iff) h

theorem keeps_conjunction_iff (h : conjunction? ps = some whole) :
    (mk whole).keeps row = .ok true ↔ ∀ p ∈ ps, (mk p).keeps row = .ok true :=
  conjunction_iff (Q := fun e => (mk e).keeps row = .ok true) (fun _ _ => keeps_and_iff) h

theorem joins_conjunction (h : conjunction? ps = some whole) : Joins row ps whole := by
  have keeps : (mk whole).keeps row = .ok true ↔ ∀ p ∈ ps, (mk p).keeps row = .ok true :=
    keeps_conjunction_iff h
  have fails : (∃ fault, (mk whole).keeps row = .error fault) ↔
      ∃ p ∈ ps, ∃ fault, (mk p).keeps row = .error fault := by
    simp only [error_iff_not_ok, decides_conjunction_iff h, not_forall, exists_prop]
  refine ⟨keeps, fails, ?_⟩
  rw [← keeps, ← fails]
  rcases (mk whole).keeps row with fault | _ | _ <;> simp

theorem select_ok_iff_all (h : conjunction? ps = some whole) :
    (∃ numbers, (mk whole).select rows = .ok numbers) ↔
      ∀ p ∈ ps, ∃ own, (mk p).select rows = .ok own := by
  simp only [select_ok_iff, decides_conjunction_iff h]
  exact ⟨fun all p mem row among => all row among p mem, fun all row among p mem => all p mem row among⟩

/-- A row is kept by the conjunction when every filter keeps it. -/
theorem mem_select_iff_all (h : conjunction? ps = some whole)
    (selected : (mk whole).select rows = .ok numbers) (i : Nat) :
    i ∈ numbers ↔ ∀ p ∈ ps, ∃ own, (mk p).select rows = .ok own ∧ i ∈ own := by
  rw [(selects_of_select selected).mem_iff]
  constructor
  · rintro ⟨row, found, kept⟩ p mem
    obtain ⟨own, selectedOwn⟩ := (select_ok_iff_all h).mp ⟨numbers, selected⟩ p mem
    have kept := (keeps_conjunction_iff h).mp kept p mem
    exact ⟨own, selectedOwn, ((selects_of_select selectedOwn).mem_iff i).mpr ⟨row, found, kept⟩⟩
  · intro all
    have keptBy : ∀ p ∈ ps, ∃ row, rows[i]? = some row ∧ (mk p).keeps row = .ok true := by
      intro p mem
      obtain ⟨own, selectedOwn, among⟩ := all p mem
      exact ((selects_of_select selectedOwn).mem_iff i).mp among
    -- There is a filter, so there is a row, and it is the same for all.
    obtain ⟨p, mem⟩ := exists_mem_of_conjunction h
    obtain ⟨row, found, -⟩ := keptBy p mem
    refine ⟨row, found, (keeps_conjunction_iff h).mpr fun p mem => ?_⟩
    obtain ⟨row', found', kept⟩ := keptBy p mem
    cases found.symm.trans found'
    exact kept

/-- Filters in another order decide the same rows, keep the same and so select the same. -/
theorem select_conjunction_perm (h : conjunction? ps = some whole)
    (h' : conjunction? ps' = some whole') (perm : ps.Perm ps')
    (selected : (mk whole).select rows = .ok numbers) : (mk whole').select rows = .ok numbers := by
  have same : ∀ Q : Expr → Prop, (∀ p ∈ ps, Q p) ↔ ∀ p ∈ ps', Q p := fun Q =>
    forall_congr' fun p => by rw [perm.mem_iff]
  refine select_eq_ok_iff.mpr ((selects_of_select selected).congr (fun row => ?_) fun row => ?_)
  · rw [decides_conjunction_iff h, decides_conjunction_iff h', same]
  · rw [keeps_conjunction_iff h, keeps_conjunction_iff h', same]

end All

/-- **A conjunction is an intersection, in any order.**  On every row it keeps what all its filters keep
and fails where one of them fails, with nulls and other roots that are no truth values.  Over rows on
which none of them fails it selects the numbers that all of them select, and the same filters in another
order select the same and fail over the same rows. -/
theorem conjunction_intersects {ps : List Expr} (ne : ps ≠ []) :
    ∃ whole, conjunction? ps = some whole ∧ (∀ row, Joins row ps whole) ∧
      (∀ rows, (∀ row ∈ rows, ∀ p ∈ ps, ∀ fault, (mk p).keeps row ≠ .error fault) →
        ∃ numbers, (mk whole).select rows = .ok numbers ∧
          (∀ p ∈ ps, ∃ own, (mk p).select rows = .ok own) ∧ numbers.Pairwise (· < ·) ∧
          ∀ i, i ∈ numbers ↔ ∀ p ∈ ps, ∃ own, (mk p).select rows = .ok own ∧ i ∈ own) ∧
      ∀ ps', ps.Perm ps' → ∃ whole', conjunction? ps' = some whole' ∧
        ∀ rows numbers,
          (mk whole).select rows = .ok numbers ↔ (mk whole').select rows = .ok numbers := by
  obtain ⟨whole, h⟩ := exists_conjunction ne
  refine ⟨whole, h, fun row => joins_conjunction h, fun rows faultless => ?_, fun ps' perm => ?_⟩
  · have decided : ∀ row ∈ rows, ∀ p ∈ ps, ∃ b, (mk p).keeps row = .ok b := by
      intro row among p mem
      by_contra undecided
      obtain ⟨fault, failed⟩ := error_iff_not_ok.mpr undecided
      exact faultless row among p mem fault failed
    have selections : ∀ p ∈ ps, ∃ own, (mk p).select rows = .ok own := fun p mem =>
      select_ok_iff.mpr fun row among => decided row among p mem
    obtain ⟨numbers, selected⟩ := (select_ok_iff_all h).mpr selections
    have increasing := (selects_of_select selected).increasing
    exact ⟨numbers, selected, selections, increasing, mem_select_iff_all h selected⟩
  · have ne' : ps' ≠ [] := by
      rintro rfl
      exact ne (List.perm_nil.mp perm)
    obtain ⟨whole', h'⟩ := exists_conjunction ne'
    refine ⟨whole', h', fun rows numbers => ⟨?_, ?_⟩⟩
    · exact select_conjunction_perm h h' perm
    · exact select_conjunction_perm h' h perm.symm

/-- `#0 > 1`, `#1 = 'x'` and `TRUE`. -/
def threeTests : List Expr :=
  [.comparison .greaterThan (.column ⟨0, .integer, none⟩) (.ofValue (.integer 1)),
    .comparison .equals (.column ⟨1, .string, none⟩) (.ofValue (.string "x")),
    .ofValue (.boolean true)]

/-- Four rows, of which the second is too low and the third has no text. -/
def fourRows : List Row :=
  [[.integer 5, .string "x"], [.integer 0, .string "x"], [.integer 7, .null],
    [.integer 9, .string "x"]]

theorem threeTests_intersect :
    threeTests ≠ [] ∧
      (∀ row ∈ fourRows, ∀ p ∈ threeTests, ∀ fault, (mk p).keeps row ≠ .error fault) ∧
      threeTests.Perm threeTests.reverse ∧
      ∃ whole, conjunction? threeTests.reverse = some whole ∧
        (mk whole).select fourRows = .ok [0, 3] := by
  have ne : threeTests ≠ [] := List.cons_ne_nil _ _
  have faultless : ∀ row ∈ fourRows, ∀ p ∈ threeTests, ∀ fault,
      (mk p).keeps row ≠ .error fault := by
    have decided : ∀ row ∈ fourRows, ∀ p ∈ threeTests, ((mk p).keeps row).isOk = true := by decide
    intro row among p mem fault failed
    have decided := decided row among p mem
    rw [failed] at decided
    cases decided
  have perm : threeTests.Perm threeTests.reverse := (List.reverse_perm _).symm
  refine ⟨ne, faultless, perm, ?_⟩
  obtain ⟨whole, h, -, intersect, reordered⟩ := conjunction_intersects ne
  obtain ⟨numbers, selected, -⟩ := intersect fourRows faultless
  have computed : numbers = [0, 3] := by
    cases h
    exact Except.ok.inj (selected.symm.trans rfl)
  subst computed
  obtain ⟨whole', h', same⟩ := reordered _ perm
  exact ⟨whole', h', (same fourRows _).mp selected⟩

end Filter

end RowFilter
