import RowFilter.Expr.Typing
import RowFilter.Proofs.DecimalOrder
import RowFilter.Proofs.Evaluation

/-!
# Proofs.Comparison — which cells can be compared

A cell that is well tagged is read through a frame exactly when it is not null and its type may be
read so (`ReadsFrame`); reading then fails only for a text that is no value of the frame and for a
double that is no decimal (`Value.Inconvertible`).  So comparing cells of comparable types gives a
truth value or the fault of the operand of lower rank (`gives_compareFor`), and comparing cells of
other types always fails (`compareFor_incomparable`).
-/

namespace RowFilter

set_option autoImplicit false

/-! ## Orders and their converses -/

/-- The order of swapped arguments is the swapped order. -/
def Swaps {α : Type} (order : α → α → Option Ordering) : Prop :=
  ∀ a b, order b a = (order a b).map Ordering.swap

theorem swaps_of_oriented {α : Type} (cmp : α → α → Ordering) [Std.OrientedCmp cmp] :
    Swaps fun a b => some (cmp a b) := by
  intro a b
  rw [Option.map_some, ← Std.OrientedCmp.eq_swap]

/-- An order by what is made of the arguments. -/
theorem Swaps.of {α β : Type} {order : β → β → Option Ordering} (swaps : Swaps order) (f : α → β) :
    Swaps fun a b => order (f a) (f b) :=
  fun a b => swaps (f a) (f b)

theorem Time.Instant.swaps_compare : Swaps fun a b : Instant => some (a.compare b) := by
  intro a b
  have seconds : Ord.compare b.second a.second = (Ord.compare a.second b.second).swap :=
    Std.OrientedCmp.eq_swap
  have nanos : Ord.compare b.nano a.nano = (Ord.compare a.nano b.nano).swap :=
    Std.OrientedCmp.eq_swap
  simp only [compare, seconds, nanos, Option.map_some]
  cases Ord.compare a.second b.second <;> rfl

theorem Decimal.swaps_compare : Swaps fun a b : Decimal => some (a.compare b) := by
  intro a b
  show some (b.compare a) = (some (a.compare b)).map Ordering.swap
  rw [compare_eq_cmp, compare_eq_cmp, Option.map_some, cmp_swap]

theorem Double.swaps_compare? : Swaps Double.compare? := by
  intro a b
  by_cases nan : (a.isNaN || b.isNaN) = true
  · rw [compare?, compare?, Bool.or_comm, if_pos nan, if_pos nan, Option.map_none]
  · have keys : Ord.compare b.key a.key = (Ord.compare a.key b.key).swap := Std.OrientedCmp.eq_swap
    rw [compare?, compare?, Bool.or_comm, if_neg nan, if_neg nan, keys, Option.map_some]

/-! ## What cannot be read -/

/-- The value has no counterpart in the frame. -/
inductive Value.Inconvertible : Value → ColumnType → Prop
  /-- A text that, without its blank ends, is no value of the frame. -/
  | text (s : String) (frame : ColumnType)
      (unreadable : ∀ v, readContent (Text.trim s.toList) frame ≠ .ok v) :
      Inconvertible (string s) frame
  /-- An infinity or a NaN, as a decimal. -/
  | double (d : Double) (infinite : d.isFinite = false) : Inconvertible (double d) .decimal

namespace Cell

/-- The fault of a node that compares and cannot convert an operand to the frame. -/
def unconverted (kind : Kind) (v : Value) (frame : ColumnType) : Fault :=
  .unsupported (.node kind) (.coercion (.cannotConvert v frame))

/-- Neither operand is null, and the one of lower rank has no counterpart in the other's type. -/
inductive Clash (kind : Kind) (l r : Cell) : Fault → Prop
  | left (left : l.isNull = false) (right : r.isNull = false) (lower : l.type.rank < r.type.rank)
      (h : l.value.Inconvertible r.type) : Clash kind l r (unconverted kind l.value r.type)
  | right (left : l.isNull = false) (right : r.isNull = false) (lower : r.type.rank < l.type.rank)
      (h : r.value.Inconvertible l.type) : Clash kind l r (unconverted kind r.value l.type)

/-! ## Reading -/

/-- A cell that is well tagged and not null has the type of its value. -/
theorem WellTagged.type_eq {c : Cell} (tagged : c.WellTagged) (full : c.isNull = false) :
    c.value.type = c.type := by
  rcases Value.fits_iff.mp tagged with h | h
  · simp [isNull, h, Value.isNull] at full
  · exact h

theorem eq_of_type_eq {c : Cell} (h : c.value.type = c.type) : of c.value = c :=
  congrArg (Cell.mk · c.value) h

/-- The value is of lower rank and has no counterpart in the frame, and the reason says so. -/
def Unconverted (v : Value) (frame : ColumnType) (reason : Coercion) : Prop :=
  reason = .cannotConvert v frame ∧ v.type.rank < frame.rank ∧ v.Inconvertible frame

/-- What reading through the frame does: it refuses nulls and types that may not be read so, and of
the others a text or a double that has no counterpart in the frame. -/
structure ReadsFrame {α : Type} (read : Cell → Except Coercion α) (frame : ColumnType) : Prop where
  null : ∀ t : ColumnType, read (.null t) = .error (.cannotRead t frame)
  refuses : ∀ v : Value, v.isNull = false → v.type.canReadAs frame = false →
    read (of v) = .error (.cannotRead v.type frame)
  reads : ∀ v : Value, v.isNull = false → v.type.canReadAs frame = true →
    Gives (fun _ => True) (Unconverted v frame) (read (of v))

theorem gives_text {α : Type} {s : String} {frame : ColumnType} {o : Option α}
    (lower : ColumnType.string.rank < frame.rank)
    (unread : o = none → ∃ complaint, Value.readContent (content s) frame = .error complaint) :
    Gives (fun _ => True) (Unconverted (.string s) frame) ((of (.string s)).converted frame o) := by
  cases o with
  | some a => trivial
  | none =>
      obtain ⟨complaint, h⟩ := unread rfl
      refine ⟨rfl, lower, .text s frame fun v read => ?_⟩
      rw [content] at h
      rw [h] at read
      cases read

/-- The same for a text that is read by `x` wherever it is read as the type. -/
theorem gives_text_toOption {ε α : Type} {s : String} {frame : ColumnType} {x : Except ε α}
    {f : α → Value} {g : ε → Value.Complaint} (lower : ColumnType.string.rank < frame.rank)
    (same : Value.readContent (content s) frame = (x.map f).mapError g) :
    Gives (fun _ => True) (Unconverted (.string s) frame)
      ((of (.string s)).converted frame x.toOption) := by
  refine gives_text lower ?_
  intro h
  cases x with
  | error fault => exact ⟨_, same⟩
  | ok a => cases h

theorem readsFrame_string : ReadsFrame readString .string where
  null _ := rfl
  refuses v _ refused := by cases v <;> first | rfl | cases refused
  reads v _ readable := by cases v <;> trivial

theorem readsFrame_timestamp : ReadsFrame readTimestamp .timestamp where
  null _ := rfl
  refuses v _ refused := by cases v <;> first | rfl | cases refused
  reads v _ readable := by
    cases v with
    | string s => exact gives_text (by decide) fun h => by simp [Value.readContent, h]
    | _ => trivial

theorem readsFrame_integer : ReadsFrame readInteger .integer where
  null _ := rfl
  refuses v _ refused := by cases v <;> first | rfl | cases refused
  reads v _ readable := by
    cases v with
    | string s => exact gives_text_toOption (by decide) rfl
    | _ => trivial

theorem readsFrame_long : ReadsFrame readLong .long where
  null _ := rfl
  refuses v _ refused := by cases v <;> first | rfl | cases refused
  reads v _ readable := by
    cases v with
    | string s => exact gives_text_toOption (by decide) rfl
    | _ => trivial

theorem readsFrame_double : ReadsFrame readDouble .double where
  null _ := rfl
  refuses v _ refused := by cases v <;> first | rfl | cases refused
  reads v _ readable := by
    cases v with
    | string s => exact gives_text (by decide) fun h => by simp [Value.readContent, h]
    | _ => trivial

theorem ofDouble?_eq_none_iff (d : Double) : Decimal.ofDouble? d = none ↔ d.isFinite = false := by
  simp only [Decimal.ofDouble?]
  split
  · rename_i finite
    split <;> simp [finite]
  · rename_i infinite
    simp [infinite]

theorem readsFrame_decimal : ReadsFrame readDecimal .decimal where
  null _ := rfl
  refuses v _ refused := by cases v <;> first | rfl | cases refused
  reads v _ readable := by
    cases v with
    | string s => exact gives_text_toOption (by decide) rfl
    | double d =>
        simp only [readDecimal, of]
        cases h : Decimal.ofDouble? d with
        | some n => trivial
        | none =>
            have infinite := (ofDouble?_eq_none_iff d).mp h
            exact ⟨rfl, Nat.lt_succ_self 6, .double d infinite⟩
    | _ => trivial

/-! ## Comparing -/

section

variable {α : Type} {read : Cell → Except Coercion α} {frame : ColumnType}
  {order : α → α → Option Ordering}

theorem standingBy_eq_ok {l r : Cell} {s : Standing} :
    standingBy read order l r = .ok s ↔
      ∃ a b, read l = .ok a ∧ read r = .ok b ∧ s = .ofOption (order a b) := by
  unfold standingBy
  cases read l with
  | error reason => simp
  | ok a =>
      cases read r with
      | error reason => simp
      | ok b => simp [eq_comm]

theorem gives_standingBy (h : ReadsFrame read frame) {v w : Value} (fullv : v.isNull = false)
    (fullw : w.isNull = false) (readv : v.type.canReadAs frame = true)
    (readw : w.type.canReadAs frame = true) :
    Gives (fun _ => True) (fun reason => Unconverted v frame reason ∨ Unconverted w frame reason)
      (standingBy read order (of v) (of w)) := by
  have left := h.reads v fullv readv
  have right := h.reads w fullw readw
  unfold standingBy
  cases hl : read (of v) with
  | error reason =>
      rw [hl] at left
      exact .inl left
  | ok a =>
      cases hr : read (of w) with
      | error reason =>
          rw [hr] at right
          exact .inr right
      | ok b => trivial

theorem standingBy_unreadable (h : ReadsFrame read frame) {v w : Value} (fullv : v.isNull = false)
    (fullw : w.isNull = false)
    (unreadable : v.type.canReadAs frame = false ∨ w.type.canReadAs frame = false) :
    ∃ reason, standingBy read order (of v) (of w) = .error reason := by
  unfold standingBy
  cases hl : read (of v) with
  | error reason => exact ⟨reason, rfl⟩
  | ok a =>
      rcases unreadable with refused | refused
      · rw [h.refuses v fullv refused] at hl
        cases hl
      · rw [h.refuses w fullw refused]
        exact ⟨_, rfl⟩

end

/-- How cells are compared in a frame: not at all, or as a reader of the frame and an order have it. -/
theorem standing_of_frame (frame : ColumnType) :
    ((frame = .null ∨ frame = .boolean) ∧
        ∀ l r : Cell, ColumnType.frame l.type r.type = frame → standing l r = .ok .unranked) ∨
      ∃ (α : Type) (read : Cell → Except Coercion α) (order : α → α → Option Ordering),
        ReadsFrame read frame ∧ Swaps order ∧
          ∀ l r : Cell, ColumnType.frame l.type r.type = frame →
            standing l r = standingBy read order l r := by
  cases frame with
  | null => exact .inl ⟨.inl rfl, fun l r h => by simp only [standing, h]⟩
  | boolean => exact .inl ⟨.inr rfl, fun l r h => by simp only [standing, h]⟩
  | string =>
      refine .inr ⟨_, _, _, readsFrame_string, swaps_of_oriented Ord.compare, fun l r h => ?_⟩
      simp only [standing, h]
  | timestamp =>
      refine .inr ⟨_, _, _, readsFrame_timestamp, Time.Instant.swaps_compare, fun l r h => ?_⟩
      simp only [standing, h]
  | integer =>
      refine .inr ⟨_, _, _, readsFrame_integer, (swaps_of_oriented Ord.compare).of Int32.toInt,
        fun l r h => ?_⟩
      simp only [standing, h]
  | long =>
      refine .inr ⟨_, _, _, readsFrame_long, (swaps_of_oriented Ord.compare).of Int64.toInt,
        fun l r h => ?_⟩
      simp only [standing, h]
  | double =>
      refine .inr ⟨_, _, _, readsFrame_double, Double.swaps_compare?, fun l r h => ?_⟩
      simp only [standing, h]
  | decimal =>
      refine .inr ⟨_, _, _, readsFrame_decimal, Decimal.swaps_compare, fun l r h => ?_⟩
      simp only [standing, h]

/-- The standing of two cells: there is none in a frame without an order, and otherwise both cells
are read through the frame. -/
theorem standing_eq (l r : Cell) :
    (ColumnType.frame l.type r.type = .null ∨ ColumnType.frame l.type r.type = .boolean) ∧
        standing l r = .ok .unranked ∨
      ∃ (α : Type) (read : Cell → Except Coercion α) (order : α → α → Option Ordering),
        ReadsFrame read (ColumnType.frame l.type r.type) ∧
          standing l r = standingBy read order l r := by
  rcases standing_of_frame (ColumnType.frame l.type r.type) with
    ⟨frame, unranked⟩ | ⟨α, read, order, reads, -, standing⟩
  · exact .inl ⟨frame, unranked l r rfl⟩
  · exact .inr ⟨α, read, order, reads, standing l r rfl⟩

theorem frame_of_lt {s t : ColumnType} (h : s.rank < (ColumnType.frame s t).rank) :
    s.rank < t.rank ∧ ColumnType.frame s t = t := by
  simp only [ColumnType.frame] at h ⊢
  split at h
  · rename_i lower
    exact ⟨lower, if_pos lower⟩
  · omega

theorem comparable_of_unordered {s t : ColumnType}
    (h : ColumnType.frame s t = .null ∨ ColumnType.frame s t = .boolean) :
    s.comparable t = true := by
  cases s <;> cases t <;> first | rfl | (rcases h with h | h <;> cases h)

variable {kind : Kind} {comparator : Comparator} {l r : Cell}

theorem compareFor_null (null : l.isNull = true ∨ r.isNull = true) :
    compareFor kind comparator l r = .ok false := by
  rw [compareFor, if_pos (Bool.or_eq_true_iff.mpr null)]

theorem compareFor_full (left : l.isNull = false) (right : r.isNull = false) :
    compareFor kind comparator l r =
      ((standing l r).map (·.satisfies comparator)).mapError
        fun reason => .unsupported (.node kind) (.coercion reason) := by
  simp only [compareFor, left, right, Bool.or_self, Bool.false_eq_true, if_false]
  cases standing l r <;> rfl

theorem clash_of_unconverted (left : l.isNull = false) (right : r.isNull = false)
    (typel : l.value.type = l.type) (typer : r.value.type = r.type) {reason : Coercion}
    (h : Unconverted l.value (ColumnType.frame l.type r.type) reason ∨
      Unconverted r.value (ColumnType.frame l.type r.type) reason) :
    Clash kind l r (.unsupported (.node kind) (.coercion reason)) := by
  rcases h with ⟨rfl, lower, h⟩ | ⟨rfl, lower, h⟩
  · rw [typel] at lower
    obtain ⟨lower, same⟩ := frame_of_lt lower
    rw [same] at h ⊢
    exact .left left right lower h
  · rw [typer, ColumnType.frame_comm] at lower
    obtain ⟨lower, same⟩ := frame_of_lt lower
    rw [ColumnType.frame_comm, same] at h ⊢
    exact .right left right lower h

/-- Cells of comparable types compare, or the one of lower rank has no counterpart in the other's
type. -/
theorem gives_compareFor (tagl : l.WellTagged) (tagr : r.WellTagged)
    (comparable : l.type.comparable r.type = true) :
    Gives (fun _ => True) (Clash kind l r) (compareFor kind comparator l r) := by
  unfold compareFor
  split
  · trivial
  rename_i full
  simp only [Bool.or_eq_true, not_or, Bool.not_eq_true] at full
  obtain ⟨left, right⟩ := full
  have typel := tagl.type_eq left
  have typer := tagr.type_eq right
  simp only [ColumnType.comparable, Bool.and_eq_true] at comparable
  rcases standing_eq l r with ⟨-, h⟩ | ⟨α, read, order, reads, h⟩
  · rw [h]
    trivial
  · have given : Gives (fun _ => True) _ (standingBy read order (of l.value) (of r.value)) :=
      gives_standingBy reads left right (typel ▸ comparable.1) (typer ▸ comparable.2)
    rw [eq_of_type_eq typel, eq_of_type_eq typer, ← h] at given
    cases hs : standing l r with
    | ok s => trivial
    | error reason =>
        rw [hs] at given
        exact clash_of_unconverted left right typel typer given

/-- Cells of types that are not comparable do not compare. -/
theorem compareFor_incomparable (tagl : l.WellTagged) (tagr : r.WellTagged)
    (left : l.isNull = false) (right : r.isNull = false)
    (incomparable : l.type.comparable r.type = false) :
    ∃ fault, compareFor kind comparator l r = .error fault := by
  have typel := tagl.type_eq left
  have typer := tagr.type_eq right
  simp only [compareFor, left, right, Bool.or_self, Bool.false_eq_true, if_false]
  rcases standing_eq l r with ⟨unordered, -⟩ | ⟨α, read, order, reads, h⟩
  · rw [comparable_of_unordered unordered] at incomparable
    cases incomparable
  · simp only [ColumnType.comparable, Bool.and_eq_false_iff, ← typel, ← typer] at incomparable
    rw [← typel, ← typer] at reads
    have failed : ∃ reason, standingBy read order (of l.value) (of r.value) = .error reason :=
      standingBy_unreadable reads left right incomparable
    rw [eq_of_type_eq typel, eq_of_type_eq typer, ← h] at failed
    obtain ⟨reason, h⟩ := failed
    rw [h]
    exact ⟨_, rfl⟩

end Cell

end RowFilter
