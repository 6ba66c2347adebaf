import RowFilter.Proofs.Comparison
import RowFilter.Proofs.Strictness
import Mathlib.Data.List.Perm.Basic

/-!
# Proofs.Membership — what a search among items comes to

A search compares the probe with the items until one equals it; the items behind that one are evaluated
and not compared.  So a membership node evaluates exactly where its probe and all its items do and the
probe can be compared with every item that no equal one precedes (`evaluate_member_eq_ok`).  What the
node then gives depends on which items there are and not on their order.

A disjunction of comparisons compares the probe with every item.  It refuses more lists, and where it
evaluates the membership node gives the same.
-/

namespace RowFilter

set_option autoImplicit false

namespace Cell

/-! ## Items against a probe -/

/-- The item can be compared with the probe. -/
def Comparable (probe item : Cell) : Prop := ∃ b, compare .equals probe item = .ok b

/-- Whether the item equals the probe; one that cannot be compared with it does not. -/
def equals (probe item : Cell) : Bool := (compare .equals probe item).toOption.getD false

/-- The items can be compared with the probe, up to the first that equals it. -/
def Searchable (probe : Cell) : List Cell → Prop
  | [] => True
  | item :: more => Comparable probe item ∧ (equals probe item = false → Searchable probe more)

section Items

variable {kind : Kind} {probe item : Cell} {cells cells' : List Cell}

/-- The node that compares has no part in the answer. -/
theorem compareFor_eq_ok {b : Bool} :
    compareFor kind .equals probe item = .ok b ↔
      Comparable probe item ∧ b = equals probe item := by
  unfold Comparable equals compare compareFor
  split
  · simp [Except.toOption, eq_comm]
  · cases standing probe item <;> simp [Except.toOption, eq_comm]

theorem comparable_of_null (null : item.isNull = true) : Comparable probe item :=
  ⟨false, compareFor_null (.inr null)⟩

theorem equals_of_null (null : probe.isNull = true ∨ item.isNull = true) :
    equals probe item = false := by
  rw [equals, compare, compareFor_null null]
  rfl

theorem comparable_of_equals (found : equals probe item = true) : Comparable probe item := by
  unfold equals at found
  cases h : compare .equals probe item with
  | ok b => exact ⟨b, h⟩
  | error fault => simp [h, Except.toOption] at found

theorem searchable_of_comparable (all : ∀ c ∈ cells, Comparable probe c) :
    Searchable probe cells := by
  induction cells with
  | nil => trivial
  | cons c more ih =>
      rw [List.forall_mem_cons] at all
      exact ⟨all.1, fun _ => ih all.2⟩

/-- A search without a match compares every item. -/
theorem comparable_of_searchable (searchable : Searchable probe cells)
    (none : cells.any (equals probe) = false) : ∀ c ∈ cells, Comparable probe c := by
  induction cells with
  | nil => simp
  | cons c more ih =>
      rw [List.any_cons, Bool.or_eq_false_iff] at none
      rw [List.forall_mem_cons]
      exact ⟨searchable.1, ih (searchable.2 none.1) none.2⟩

/-- The order of items does not matter to a search that compares all of them or matches none. -/
theorem searchable_perm (perm : cells.Perm cells')
    (compared : cells.any (equals probe) = true → ∀ c ∈ cells, Comparable probe c)
    (searchable : Searchable probe cells) : Searchable probe cells' := by
  apply searchable_of_comparable
  intro c mem
  cases found : cells.any (equals probe) with
  | true => exact compared found c (perm.mem_iff.mpr mem)
  | false => exact comparable_of_searchable searchable found c (perm.mem_iff.mpr mem)

/-- One step of a search: until there is a match the item has to be comparable. -/
theorem step_eq_ok {s t : Search} :
    s.step kind probe item = .ok t ↔
      (s.matched = false → Comparable probe item) ∧
        t = ⟨s.matched || equals probe item, s.sawNull || item.isNull⟩ := by
  unfold Search.step
  split
  · rename_i null
    simp only [comparable_of_null null, equals_of_null (.inr null), null, implies_true, true_and,
      Bool.or_false, Bool.or_true, Except.ok.injEq, eq_comm (a := t)]
  · rename_i full
    rw [Bool.not_eq_true] at full
    split
    · rename_i found
      obtain ⟨matched, sawNull⟩ := s
      cases found
      simp only [full, Bool.true_or, Bool.or_false, Bool.true_eq_false, false_implies, true_and,
        Except.ok.injEq, eq_comm (a := t)]
    · rename_i unmatched
      rw [Bool.not_eq_true] at unmatched
      simp only [map_eq_ok, compareFor_eq_ok, unmatched, full, forall_const, Bool.false_or,
        Bool.or_false]
      constructor
      · rintro ⟨_, ⟨comparable, rfl⟩, rfl⟩
        exact ⟨comparable, rfl⟩
      · rintro ⟨comparable, rfl⟩
        exact ⟨_, ⟨comparable, rfl⟩, rfl⟩

end Items

end Cell

namespace Expr

/-! ## Searches -/

/-- The trees evaluate to the cells, one by one. -/
def Yield (row : Row) : List Expr → List Cell → Prop :=
  List.Forall₂ fun item c => item.evaluate row = .ok c

section Searches

variable {row : Row} {e : Expr} {items : List Expr}

theorem searchBy_eq_ok {kind : Kind} {probe : Cell} {s t : Search} :
    searchBy row.fetch kind probe items s = .ok t ↔
      ∃ cells, Yield row items cells ∧ (s.matched = false → probe.Searchable cells) ∧
        t = ⟨s.matched || cells.any probe.equals, s.sawNull || cells.any Cell.isNull⟩ := by
  induction items generalizing s with
  | nil =>
      rw [searchBy_nil]
      constructor
      · intro h
        cases h
        exact ⟨[], .nil, fun _ => trivial, by simp⟩
      · rintro ⟨cells, all, -, rfl⟩
        cases all
        simp
  | cons item more ih =>
      simp only [searchBy_cons, bind_eq_ok, Cell.step_eq_ok, ih]
      constructor
      · rintro ⟨c, hc, _, ⟨comparable, rfl⟩, cells, all, searchable, rfl⟩
        refine ⟨c :: cells, .cons hc all, fun unmatched => ⟨comparable unmatched, fun other => ?_⟩, ?_⟩
        · exact searchable (by rw [unmatched, other]; rfl)
        · simp only [List.any_cons, Bool.or_assoc]
      · rintro ⟨_, all, searchable, rfl⟩
        cases all with
        | @cons _ c _ cells hc all =>
            refine ⟨c, hc, _, ⟨fun unmatched => (searchable unmatched).1, rfl⟩, cells, all, ?_, ?_⟩
            · intro unmatched
              rw [Bool.or_eq_false_iff] at unmatched
              exact (searchable unmatched.1).2 unmatched.2
            · simp only [List.any_cons, Bool.or_assoc]

/-- A membership node evaluates where its probe and its items do and the items can be searched. -/
theorem evaluate_member_eq_ok {negated : Bool} {a : Cell} (ne : items ≠ []) :
    (member negated e items).evaluate row = .ok a ↔
      ∃ probe cells, e.evaluate row = .ok probe ∧ Yield row items cells ∧
        probe.Searchable cells ∧
        a = Cell.boolean
          (Search.outcome negated probe ⟨cells.any probe.equals, cells.any Cell.isNull⟩) := by
  simp only [evaluate_member_of_ne_nil ne, bind_eq_ok, map_eq_ok, searchBy_eq_ok, Search.start,
    Bool.false_or, forall_const]
  constructor
  · rintro ⟨probe, hp, _, ⟨cells, all, searchable, rfl⟩, rfl⟩
    exact ⟨probe, cells, hp, all, searchable, rfl⟩
  · rintro ⟨probe, cells, hp, all, searchable, rfl⟩
    exact ⟨probe, hp, _, ⟨cells, all, searchable, rfl⟩, rfl⟩

/-- A node and its negation evaluate together. -/
theorem evaluates_negated (ne : items ≠ []) (negated negated' : Bool) :
    (∃ a, (member negated e items).evaluate row = .ok a) ↔
      ∃ b, (member negated' e items).evaluate row = .ok b := by
  simp only [evaluate_member_eq_ok ne]
  constructor <;> exact fun ⟨_, probe, cells, hp, all, searchable, _⟩ =>
    ⟨_, probe, cells, hp, all, searchable, rfl⟩

end Searches

/-! ## Chains of comparisons -/

/-- The tree evaluates to a cell that is not null. -/
def HasValue (row : Row) (e : Expr) : Prop := ∃ c, e.evaluate row = .ok c ∧ c.isNull = false

/-- The disjunction, from the left, of the comparisons of a tree with the items. -/
def equalsAny (e item : Expr) (more : List Expr) : Expr :=
  more.foldl (fun chain next => or chain (comparison .equals e next)) (comparison .equals e item)

section Chains

variable {row : Row} {e item : Expr} {more items : List Expr}

theorem evaluate_equals_eq_ok {a : Cell} :
    (comparison .equals e item).evaluate row = .ok a ↔
      ∃ probe c, e.evaluate row = .ok probe ∧ item.evaluate row = .ok c ∧
        probe.Comparable c ∧ a = Cell.boolean (probe.equals c) := by
  simp only [evaluate_comparison, bind_eq_ok, Cell.comparison, map_eq_ok, Cell.compare,
    Cell.compareFor_eq_ok]
  constructor
  · rintro ⟨probe, hp, c, hc, _, ⟨comparable, rfl⟩, rfl⟩
    exact ⟨probe, c, hp, hc, comparable, rfl⟩
  · rintro ⟨probe, c, hp, hc, comparable, rfl⟩
    exact ⟨probe, hp, c, hc, _, ⟨comparable, rfl⟩, rfl⟩

/-- A chain that evaluates has compared the probe with every item. -/
theorem cells_of_equalsAny {a : Cell} (h : (equalsAny e item more).evaluate row = .ok a) :
    ∃ probe cells, e.evaluate row = .ok probe ∧ Yield row (item :: more) cells ∧
      (∀ c ∈ cells, probe.Comparable c) ∧ a = Cell.boolean (cells.any probe.equals) := by
  -- The last item stands at the root, so the induction is from the end of the list.
  induction more using List.reverseRecOn generalizing a with
  | nil =>
      obtain ⟨probe, c, hp, hc, comparable, rfl⟩ := evaluate_equals_eq_ok.mp h
      exact ⟨probe, [c], hp, .cons hc .nil, by simpa using comparable, by simp⟩
  | append_singleton more last ih =>
      simp only [equalsAny, List.foldl_append, List.foldl_cons, List.foldl_nil, or, evaluate_logic,
        bind_eq_ok] at h
      obtain ⟨l, hl, r, hr, joined⟩ := h
      obtain ⟨probe, cells, hp, all, comparable, rfl⟩ := ih hl
      obtain ⟨probe', c, hp', hc, comparable', rfl⟩ := evaluate_equals_eq_ok.mp hr
      cases hp.symm.trans hp'
      cases joined
      refine ⟨probe, cells ++ [c], hp, List.rel_append all (.cons hc .nil), ?_, ?_⟩
      · simpa [or_imp, forall_and] using ⟨comparable, comparable'⟩
      · rw [List.any_append, List.any_cons, List.any_nil, Bool.or_false]
        rfl

theorem hasValue_iff {c : Cell} (h : e.evaluate row = .ok c) :
    e.HasValue row ↔ c.isNull = false := by
  simp [HasValue, h]

theorem hasValues_iff {cells : List Cell} (all : Yield row items cells) :
    (∀ x ∈ items, x.HasValue row) ↔ cells.any Cell.isNull = false := by
  induction all with
  | nil => simp
  | cons first _ ih => rw [List.forall_mem_cons, hasValue_iff first, ih, List.any_cons,
      Bool.or_eq_false_iff]

end Chains

end Expr

namespace Search

theorem outcome_false {probe : Cell} {cells : List Cell} {sawNull : Bool} :
    outcome false probe ⟨cells.any probe.equals, sawNull⟩ = cells.any probe.equals := by
  unfold outcome
  split
  · rename_i null
    simp [Cell.equals_of_null (.inl null)]
  · rfl

theorem outcome_true {probe : Cell} {matched sawNull : Bool} :
    outcome true probe ⟨matched, sawNull⟩ = true ↔
      (probe.isNull = false ∧ sawNull = false) ∧ matched = false := by
  unfold outcome
  cases probe.isNull <;> simp

end Search

namespace Expr

theorem boolean_inj {s t : Bool} : Cell.boolean s = Cell.boolean t ↔ s = t := by
  simp only [Cell.boolean, Cell.of, Value.type, Cell.mk.injEq, Value.boolean.injEq, true_and]

section Both

variable {row : Row} {e item : Expr} {more items : List Expr}

/-- Beside what `IN` gives, `NOT IN` gives the opposite as long as nothing is null. -/
theorem notIn_of_isIn {a : Cell} (ne : items ≠ [])
    (h : (member false e items).evaluate row = .ok a) :
    ∃ m b, a = Cell.boolean m ∧ (member true e items).evaluate row = .ok (Cell.boolean b) ∧
      (b = true ↔ (∀ x ∈ e :: items, x.HasValue row) ∧ m = false) := by
  obtain ⟨probe, cells, hp, all, searchable, rfl⟩ := (evaluate_member_eq_ok ne).mp h
  refine ⟨_, _, rfl, (evaluate_member_eq_ok ne).mpr ⟨probe, cells, hp, all, searchable, rfl⟩, ?_⟩
  rw [Search.outcome_true, Search.outcome_false, List.forall_mem_cons, hasValue_iff hp,
    hasValues_iff all]

/-- Where the chain evaluates, every item has been compared, so the search goes through. -/
theorem isIn_of_equalsAny {a : Cell} (h : (equalsAny e item more).evaluate row = .ok a) :
    (member false e (item :: more)).evaluate row = .ok a := by
  obtain ⟨probe, cells, hp, all, comparable, rfl⟩ := cells_of_equalsAny h
  refine (evaluate_member_eq_ok (List.cons_ne_nil _ _)).mpr
    ⟨probe, cells, hp, all, Cell.searchable_of_comparable comparable, ?_⟩
  rw [Search.outcome_false]

end Both

/-- **A membership node follows the chain of comparisons.**  Where the disjunction of the comparisons
evaluates, `IN` gives the same, and `NOT IN` gives the opposite as long as nothing is null and is false
otherwise.  Where `IN` fails the disjunction fails, and `NOT IN` fails exactly where `IN` does.  The two
are never both true, and one of them is where nothing is null. -/
theorem member_follows_chain (e item : Expr) (more : List Expr) (row : Row) :
    (∀ a, (equalsAny e item more).evaluate row = .ok a →
      (member false e (item :: more)).evaluate row = .ok a ∧
        ∃ b, (member true e (item :: more)).evaluate row = .ok (Cell.boolean b) ∧
          (b = true ↔ (∀ x ∈ e :: item :: more, x.HasValue row) ∧ a = Cell.boolean false)) ∧
      (∀ fault, (member false e (item :: more)).evaluate row = .error fault →
        ∃ other, (equalsAny e item more).evaluate row = .error other) ∧
      ((∃ fault, (member false e (item :: more)).evaluate row = .error fault) ↔
        ∃ fault, (member true e (item :: more)).evaluate row = .error fault) ∧
      ∀ a b, (member false e (item :: more)).evaluate row = .ok a →
        (member true e (item :: more)).evaluate row = .ok b →
        ¬ (a = Cell.boolean true ∧ b = Cell.boolean true) ∧
          ((∀ x ∈ e :: item :: more, x.HasValue row) →
            ∃ t, a = Cell.boolean t ∧ b = Cell.boolean !t) := by
  have ne : item :: more ≠ [] := List.cons_ne_nil _ _
  refine ⟨?_, ?_, ?_, ?_⟩
  · intro a h
    have isIn := isIn_of_equalsAny h
    obtain ⟨m, b, rfl, notIn, opposite⟩ := notIn_of_isIn ne isIn
    exact ⟨isIn, b, notIn, by rw [boolean_inj]; exact opposite⟩
  · intro fault failed
    apply error_iff_not_ok.mpr
    rintro ⟨a, h⟩
    cases failed.symm.trans (isIn_of_equalsAny h)
  · rw [error_iff_not_ok, error_iff_not_ok, evaluates_negated ne]
  · intro a c ha hc
    obtain ⟨m, b, rfl, notIn, opposite⟩ := notIn_of_isIn ne ha
    cases hc.symm.trans notIn
    simp only [boolean_inj]
    constructor
    · rintro ⟨rfl, rfl⟩
      cases (opposite.mp rfl).2
    · intro values
      refine ⟨m, rfl, ?_⟩
      cases m with
      | true => exact Bool.eq_false_iff.mpr fun found => nomatch (opposite.mp found).2
      | false => exact opposite.mpr ⟨values, rfl⟩

/-- Items for `TRUE`: a null, `TRUE` itself, which equals no truth value, and a word. -/
def oddItems : List Expr :=
  [.null .boolean, .ofValue (.boolean true), .ofValue (.string "yes")]

/-- `NULL, 2, 1`. -/
def wholeItems : List Expr :=
  [.null .integer, .ofValue (.integer 2), .ofValue (.integer 1)]

/-- With a null among the items the negation is never true, be one of them found or none; without it
the negation is true for what is not found. -/
theorem oddItems_follow_chain :
    (equalsAny (.ofValue (.boolean true)) (.null .boolean) oddItems.tail).evaluate [] =
        .ok (Cell.boolean false) ∧
      (member false (.ofValue (.boolean true)) oddItems).evaluate [] = .ok (Cell.boolean false) ∧
      (member true (.ofValue (.boolean true)) oddItems).evaluate [] = .ok (Cell.boolean false) ∧
    (equalsAny (.ofValue (.integer 1)) (.null .integer) wholeItems.tail).evaluate [] =
        .ok (Cell.boolean true) ∧
      (member false (.ofValue (.integer 1)) wholeItems).evaluate [] = .ok (Cell.boolean true) ∧
      (member true (.ofValue (.integer 1)) wholeItems).evaluate [] = .ok (Cell.boolean false) ∧
    (equalsAny (.ofValue (.integer 3)) (.ofValue (.integer 2)) wholeItems.tail.tail).evaluate [] =
        .ok (Cell.boolean false) ∧
      (member false (.ofValue (.integer 3)) wholeItems.tail).evaluate [] = .ok (Cell.boolean false) ∧
      (member true (.ofValue (.integer 3)) wholeItems.tail).evaluate [] = .ok (Cell.boolean true) := by
  have oddChain : (equalsAny (.ofValue (.boolean true)) (.null .boolean) oddItems.tail).evaluate [] =
      .ok (Cell.boolean false) := rfl
  have found : (equalsAny (.ofValue (.integer 1)) (.null .integer) wholeItems.tail).evaluate [] =
      .ok (Cell.boolean true) := rfl
  have missed : (equalsAny (.ofValue (.integer 3)) (.ofValue (.integer 2))
      wholeItems.tail.tail).evaluate [] = .ok (Cell.boolean false) := rfl
  obtain ⟨oddIn, b, oddNotIn, oddOpposite⟩ :=
    (member_follows_chain (.ofValue (.boolean true)) (.null .boolean) oddItems.tail []).1 _ oddChain
  obtain ⟨foundIn, b', foundNotIn, foundOpposite⟩ :=
    (member_follows_chain (.ofValue (.integer 1)) (.null .integer) wholeItems.tail []).1 _ found
  obtain ⟨missedIn, b'', missedNotIn, missedOpposite⟩ :=
    (member_follows_chain (.ofValue (.integer 3)) (.ofValue (.integer 2)) wholeItems.tail.tail
      []).1 _ missed
  have oddUntrue : b = false := by
    refine Bool.eq_false_iff.mpr fun opposite => ?_
    obtain ⟨c, hc, full⟩ := (oddOpposite.mp opposite).1 (.null .boolean) (by simp)
    cases hc
    cases full
  have foundUntrue : b' = false := Bool.eq_false_iff.mpr fun opposite =>
    nomatch (foundOpposite.mp opposite).2
  have missedTrue : b'' = true := by
    refine missedOpposite.mpr ⟨fun x mem => ?_, rfl⟩
    simp only [wholeItems, List.tail_cons, List.mem_cons, List.not_mem_nil, or_false] at mem
    rcases mem with rfl | rfl | rfl <;> exact ⟨_, rfl, rfl⟩
  rw [oddUntrue] at oddNotIn
  rw [foundUntrue] at foundNotIn
  rw [missedTrue] at missedNotIn
  exact ⟨oddChain, oddIn, oddNotIn, found, foundIn, foundNotIn, missed, missedIn, missedNotIn⟩

/-! ## Items in another order -/

/-- The tree and the item evaluate and are equal. -/
def Matches (row : Row) (e item : Expr) : Prop :=
  (comparison .equals e item).evaluate row = .ok (Cell.boolean true)

/-- The tree and the item evaluate and can be compared. -/
def Compares (row : Row) (e item : Expr) : Prop :=
  ∃ a, (comparison .equals e item).evaluate row = .ok a

section Order

variable {row : Row} {e item : Expr} {probe c : Cell} {items items' : List Expr}
  {cells : List Cell}

theorem compares_iff (hp : e.evaluate row = .ok probe) (hc : item.evaluate row = .ok c) :
    e.Compares row item ↔ probe.Comparable c := by
  simp [Compares, evaluate_equals_eq_ok, hp, hc]

theorem matches_iff (hp : e.evaluate row = .ok probe) (hc : item.evaluate row = .ok c) :
    e.Matches row item ↔ probe.equals c = true := by
  simp only [Matches, evaluate_equals_eq_ok, hp, hc, Except.ok.injEq, boolean_inj]
  constructor
  · rintro ⟨_, _, rfl, rfl, -, found⟩
    exact found.symm
  · intro found
    refine ⟨probe, c, rfl, rfl, ?_, found.symm⟩
    exact Cell.comparable_of_equals found

/-- The items can be searched where each that no equal one precedes can be compared. -/
theorem searchable_iff (hp : e.evaluate row = .ok probe) (all : Yield row items cells) :
    probe.Searchable cells ↔ ∀ before item after, items = before ++ item :: after →
      (∀ earlier ∈ before, ¬ e.Matches row earlier) → e.Compares row item := by
  induction all with
  | nil => simp [Cell.Searchable]
  | @cons first c more cells hc all ih =>
      rw [Cell.Searchable, ih, ← compares_iff hp hc, ← Bool.not_eq_true, ← matches_iff hp hc]
      constructor
      · rintro ⟨now, later⟩ before item after same unmatched
        rcases List.cons_eq_append_iff.mp same with ⟨rfl, here⟩ | ⟨before, rfl, behind⟩
        · cases here
          exact now
        · rw [List.forall_mem_cons] at unmatched
          exact later unmatched.1 before item after behind unmatched.2
      · intro every
        refine ⟨every [] first more rfl (by simp), fun unmatched before item after same others => ?_⟩
        apply every (first :: before) item after (by rw [same]; rfl)
        rw [List.forall_mem_cons]
        exact ⟨unmatched, others⟩

theorem yields_iff :
    (∃ cells, Yield row items cells) ↔ ∀ item ∈ items, ∃ c, item.evaluate row = .ok c := by
  induction items with
  | nil => exact ⟨fun _ => by simp, fun _ => ⟨[], .nil⟩⟩
  | cons item more ih =>
      rw [List.forall_mem_cons, ← ih]
      constructor
      · rintro ⟨cells, all⟩
        cases all with
        | cons first rest => exact ⟨⟨_, first⟩, _, rest⟩
      · rintro ⟨⟨c, first⟩, cells, rest⟩
        exact ⟨c :: cells, .cons first rest⟩

theorem yield_unique {cells' : List Cell} (h : Yield row items cells)
    (h' : Yield row items cells') : cells = cells' := by
  refine List.right_unique_forall₂' ?_ h h'
  intro item c d hc hd
  cases hc.symm.trans hd
  rfl

/-- Items in another order evaluate to the same cells in that order. -/
theorem yield_perm (perm : items.Perm items') (all : Yield row items cells) :
    ∃ cells', Yield row items' cells' ∧ cells'.Perm cells :=
  List.perm_comp_forall₂ perm.symm all

/-- A list evaluates where its items do, and can be compared up to the first match. -/
theorem member_evaluates_iff {negated : Bool} (ne : items ≠ []) :
    (∃ a, (member negated e items).evaluate row = .ok a) ↔
      (∃ a, e.evaluate row = .ok a) ∧ (∀ item ∈ items, ∃ c, item.evaluate row = .ok c) ∧
        ∀ before item after, items = before ++ item :: after →
          (∀ earlier ∈ before, ¬ e.Matches row earlier) → e.Compares row item := by
  simp only [evaluate_member_eq_ok ne, ← yields_iff]
  constructor
  · rintro ⟨_, probe, cells, hp, all, searchable, -⟩
    exact ⟨⟨probe, hp⟩, ⟨cells, all⟩, (searchable_iff hp all).mp searchable⟩
  · rintro ⟨⟨probe, hp⟩, ⟨cells, all⟩, every⟩
    exact ⟨_, probe, cells, hp, all, (searchable_iff hp all).mpr every, rfl⟩

/-- Where an item equals the tree, every item that evaluates can be compared with the tree. -/
def Orderless (row : Row) (e : Expr) (items : List Expr) : Prop :=
  ∀ item ∈ items, e.Matches row item → ∀ other ∈ items,
    (∃ c, other.evaluate row = .ok c) → e.Compares row other

theorem Orderless.perm (orderless : e.Orderless row items) (perm : items.Perm items') :
    e.Orderless row items' := by
  intro item mem found other mem'
  exact orderless item (perm.mem_iff.mpr mem) found other (perm.mem_iff.mpr mem')

theorem item_of_yield (all : Yield row items cells) (mem : c ∈ cells) :
    ∃ item ∈ items, item.evaluate row = .ok c := by
  induction all with
  | nil => cases mem
  | @cons first d more cells hd all ih =>
      rcases List.mem_cons.mp mem with rfl | mem
      · exact ⟨first, List.mem_cons_self, hd⟩
      · obtain ⟨item, among, hc⟩ := ih mem
        exact ⟨item, List.mem_cons_of_mem _ among, hc⟩

/-- A match among the cells is a match among the items, so all of them can be compared. -/
theorem comparable_of_orderless (orderless : e.Orderless row items) (hp : e.evaluate row = .ok probe)
    (all : Yield row items cells) (found : cells.any probe.equals = true) :
    ∀ c ∈ cells, probe.Comparable c := by
  obtain ⟨d, mem, equal⟩ := List.any_eq_true.mp found
  obtain ⟨item, among, hd⟩ := item_of_yield all mem
  intro c mem
  obtain ⟨other, among', hc⟩ := item_of_yield all mem
  have matched := (matches_iff hp hd).mpr equal
  exact (compares_iff hp hc).mp (orderless item among matched other among' ⟨c, hc⟩)

theorem ne_nil_of_perm (ne : items ≠ []) (perm : items.Perm items') : items' ≠ [] := by
  rintro rfl
  exact ne (List.perm_nil.mp perm)

theorem member_evaluates_perm {negated : Bool} (ne : items ≠ []) (perm : items.Perm items')
    (orderless : e.Orderless row items) (h : ∃ a, (member negated e items).evaluate row = .ok a) :
    ∃ b, (member negated e items').evaluate row = .ok b := by
  obtain ⟨_, ha⟩ := h
  obtain ⟨probe, cells, hp, all, searchable, -⟩ := (evaluate_member_eq_ok ne).mp ha
  obtain ⟨cells', all', order⟩ := yield_perm perm all
  have ne' := ne_nil_of_perm ne perm
  have searchable' :=
    Cell.searchable_perm order.symm (comparable_of_orderless orderless hp all) searchable
  exact ⟨_, (evaluate_member_eq_ok ne').mpr ⟨probe, cells', hp, all', searchable', rfl⟩⟩

/-- What a list evaluates to depends on its items and not on their order. -/
theorem member_perm {negated : Bool} {a b : Cell} (ne : items ≠ []) (perm : items.Perm items')
    (ha : (member negated e items).evaluate row = .ok a)
    (hb : (member negated e items').evaluate row = .ok b) : a = b := by
  have ne' := ne_nil_of_perm ne perm
  obtain ⟨probe, cells, hp, all, -, rfl⟩ := (evaluate_member_eq_ok ne).mp ha
  obtain ⟨probe', cells', hp', all', -, rfl⟩ := (evaluate_member_eq_ok ne').mp hb
  cases hp.symm.trans hp'
  obtain ⟨_, again, order⟩ := yield_perm perm all
  cases yield_unique all' again
  rw [order.any_eq, order.any_eq]

end Order

/-- **The order of items matters only behind a match.**  Two orders of the same items that both evaluate
evaluate to the same.  A list evaluates where the probe and all items do and the probe can be compared
with each item that no equal one precedes.  So one order evaluates where the other does, unless one item
equals the probe and another cannot be compared with it. -/
theorem reordered_items_agree {e : Expr} {items items' : List Expr} {row : Row} (ne : items ≠ [])
    (perm : items.Perm items') (negated : Bool) :
    (∀ a b, (member negated e items).evaluate row = .ok a →
      (member negated e items').evaluate row = .ok b → a = b) ∧
      ((∃ a, (member negated e items).evaluate row = .ok a) ↔
        (∃ a, e.evaluate row = .ok a) ∧ (∀ item ∈ items, ∃ c, item.evaluate row = .ok c) ∧
          ∀ before item after, items = before ++ item :: after →
            (∀ earlier ∈ before, ¬ e.Matches row earlier) → e.Compares row item) ∧
      (e.Orderless row items →
        ((∃ a, (member negated e items).evaluate row = .ok a) ↔
          ∃ b, (member negated e items').evaluate row = .ok b)) := by
  refine ⟨fun a b => member_perm ne perm, member_evaluates_iff ne, fun orderless => ?_⟩
  have ne' := ne_nil_of_perm ne perm
  constructor
  · exact member_evaluates_perm ne perm orderless
  · exact member_evaluates_perm ne' perm.symm (orderless.perm perm)

/-- A null, 5 and a text for 2. -/
def mixedItems : List Expr :=
  [.null .integer, .ofValue (.long 5), .ofValue (.string " 2 ")]

theorem mixedItems_reversed_agree :
    mixedItems ≠ [] ∧ mixedItems.Perm mixedItems.reverse ∧
      Expr.Orderless [] (.ofValue (.integer 2)) mixedItems ∧
      (member true (.ofValue (.integer 2)) mixedItems).evaluate [] = .ok (Cell.boolean false) ∧
      ∃ b, (member true (.ofValue (.integer 2)) mixedItems.reverse).evaluate [] = .ok b ∧
        Cell.boolean false = b := by
  have ne : mixedItems ≠ [] := List.cons_ne_nil _ _
  have perm : mixedItems.Perm mixedItems.reverse := (List.reverse_perm _).symm
  have orderless : Expr.Orderless [] (.ofValue (.integer 2)) mixedItems := by
    intro _ _ _ other mem _
    simp only [mixedItems, List.mem_cons, List.not_mem_nil, or_false] at mem
    rcases mem with rfl | rfl | rfl <;> exact ⟨_, rfl⟩
  have given : (member true (.ofValue (.integer 2)) mixedItems).evaluate [] =
      .ok (Cell.boolean false) := rfl
  obtain ⟨same, -, together⟩ :=
    @reordered_items_agree (.ofValue (.integer 2)) _ _ [] ne perm true
  obtain ⟨b, hb⟩ := (together orderless).mp ⟨_, given⟩
  exact ⟨ne, perm, orderless, given, b, hb, same _ _ given hb⟩

/-- `1 IN (1, 'x')` is true, since no item behind the match is compared; `1 IN ('x', 1)` fails. -/
theorem wordBehindMatch_passes :
    (member false (.ofValue (.integer 1))
        [.ofValue (.integer 1), .ofValue (.string "x")]).evaluate [] = .ok (Cell.boolean true) ∧
      (member false (.ofValue (.integer 1))
        [.ofValue (.string "x"), .ofValue (.integer 1)]).evaluate [] =
          .error (.unsupported (.node .isIn)
            (.coercion (.cannotConvert (.string "x") .integer))) ∧
      ¬ ∀ (e : Expr) (items items' : List Expr) (row : Row), items ≠ [] → items.Perm items' →
        ((∃ a, (member false e items).evaluate row = .ok a) ↔
          ∃ b, (member false e items').evaluate row = .ok b) := by
  have passes : (member false (.ofValue (.integer 1))
      [.ofValue (.integer 1), .ofValue (.string "x")]).evaluate [] = .ok (Cell.boolean true) := rfl
  have fails : (member false (.ofValue (.integer 1))
      [.ofValue (.string "x"), .ofValue (.integer 1)]).evaluate [] =
        .error (.unsupported (.node .isIn) (.coercion (.cannotConvert (.string "x") .integer))) := rfl
  refine ⟨passes, fails, fun claim => ?_⟩
  obtain ⟨b, hb⟩ := (claim _ _ _ [] (List.cons_ne_nil _ _) (List.Perm.swap _ _ [])).mp ⟨_, passes⟩
  cases fails.symm.trans hb

end Expr

end RowFilter
