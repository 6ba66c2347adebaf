import RowFilter.Proofs.Comparison
import RowFilter.Proofs.RoundTrip

/-!
# Proofs.Shipping — filters that were written and read back

A filter read back from its bytes decides like the original, as long as only whole instants are
compared as instants (`shipped_filter_agrees`).  The frames of numbers read an instant by its
milliseconds and a decimal by its number, and both are kept.  The frame of instants alone sees more
than is kept, and there a filter can change its decisions (`subMilliEquals_changes`).
-/

namespace RowFilter

set_option autoImplicit false

namespace Cell

/-- The cell is as it was, or what is read back for it. -/
def Carried (c d : Cell) : Prop := d = c ∨ c.Ships d

/-- The types are the same, and the values are too or are decimals of one number. -/
def Matches (c d : Cell) : Prop :=
  d.type = c.type ∧ (d.value = c.value ∨
    ∃ x y, c.value = .decimal x ∧ d.value = .decimal y ∧ y.toRat = x.toRat)

variable {c d : Cell}

theorem Carried.type_eq (h : c.Carried d) : d.type = c.type := by
  rcases h with rfl | h
  · rfl
  · exact h.1

theorem matches_refl (c : Cell) : c.Matches c := ⟨rfl, .inl rfl⟩

theorem Ships.matches_of_whole (h : c.Ships d) (whole : ∀ t, c.value = .timestamp t → t.Whole) :
    c.Matches d := by
  obtain ⟨type, ships⟩ := h
  refine ⟨type, ?_⟩
  cases hv : c.value with
  | decimal x =>
      rw [hv] at ships
      obtain ⟨y, hy, number⟩ := ships
      exact .inr ⟨x, y, rfl, hy, number⟩
  | timestamp t =>
      rw [hv] at ships
      obtain ⟨u, hu, cut⟩ := ships
      rw [hu, (whole t hv).cut_eq cut]
      exact .inl rfl
  | _ =>
      rw [hv] at ships
      exact .inl ships

/-! ## Reading carried cells -/

theorem operand_of_ships (h : c.Ships d) (kind : Kind) : operand kind c = operand kind d := by
  obtain ⟨type, ships⟩ := h
  simp only [operand, type]
  cases hv : c.value with
  | decimal x =>
      rw [hv] at ships
      obtain ⟨y, hy, -⟩ := ships
      rw [hy]
  | timestamp t =>
      rw [hv] at ships
      obtain ⟨u, hu, -⟩ := ships
      rw [hu]
  | _ =>
      rw [hv] at ships
      rw [show d.value = _ from ships]

theorem interchangeable_carried : Expr.Interchangeable Carried where
  refl c := .inl rfl
  operand h kind := by
    rcases h with rfl | h
    · rfl
    · exact operand_of_ships h kind

/-- A reader that takes an instant by its milliseconds, and no decimal, reads the same. -/
theorem read_of_carried {α : Type} {read : Cell → Except Coercion α} (h : c.Carried d)
    (decimal : ∀ t x y, read ⟨t, .decimal x⟩ = read ⟨t, .decimal y⟩)
    (instant : ∀ t x y, x.epochMillis = y.epochMillis →
      read ⟨t, .timestamp x⟩ = read ⟨t, .timestamp y⟩) : read c = read d := by
  rcases h with rfl | ⟨type, ships⟩
  · rfl
  obtain ⟨t, v⟩ := c
  obtain ⟨s, w⟩ := d
  cases type
  cases v with
  | decimal x =>
      obtain ⟨y, hy, -⟩ := ships
      cases hy
      exact decimal _ x y
  | timestamp x =>
      obtain ⟨y, hy, cut⟩ := ships
      cases hy
      exact instant _ x y cut.epochMillis_eq.symm
  | _ =>
      cases ships
      rfl

/-- Decimals are read as decimals of the same number. -/
theorem readDecimal_of_carried (h : c.Carried d) :
    Agree (fun x y : Decimal => x.toRat = y.toRat) (readDecimal c) (readDecimal d) := by
  have self : ∀ x : Except Coercion Decimal, Agree (fun x y : Decimal => x.toRat = y.toRat) x x :=
    agree_refl fun _ => rfl
  rcases h with rfl | ⟨type, ships⟩
  · exact self _
  obtain ⟨t, v⟩ := c
  obtain ⟨s, w⟩ := d
  cases type
  cases v with
  | decimal x =>
      obtain ⟨y, hy, number⟩ := ships
      cases hy
      exact number.symm
  | timestamp x =>
      obtain ⟨y, hy, cut⟩ := ships
      cases hy
      simp only [readDecimal, cut.epochMillis_eq]
      rfl
  | _ =>
      cases ships
      exact self _

theorem readTimestamp_of_matches (h : c.Matches d) : readTimestamp c = readTimestamp d := by
  obtain ⟨type, same | ⟨x, y, hc, hd, -⟩⟩ := h
  · obtain ⟨t, v⟩ := c
    obtain ⟨s, w⟩ := d
    cases type
    cases same
    rfl
  · simp only [readTimestamp, hc, hd, type]

/-! ## Comparing carried cells -/

variable {l l' r r' : Cell}

theorem standingBy_congr {α : Type} {S : α → α → Prop} {read : Cell → Except Coercion α}
    {order : α → α → Option Ordering} (left : Agree S (read l) (read l'))
    (right : Agree S (read r) (read r'))
    (same : ∀ a a' b b', S a a' → S b b' → order a b = order a' b') :
    standingBy read order l r = standingBy read order l' r' := by
  unfold standingBy
  rcases agree_iff.mp left with ⟨a, a', ha, ha', first⟩ | ⟨reason, ha, ha'⟩
  · rcases agree_iff.mp right with ⟨b, b', hb, hb', second⟩ | ⟨reason, hb, hb'⟩
    · simp only [ha, ha', hb, hb', same _ _ _ _ first second]
    · simp only [ha, ha', hb, hb']
  · simp only [ha, ha']

theorem standingBy_of_eq {α : Type} {read : Cell → Except Coercion α}
    {order : α → α → Option Ordering} (left : read l = read l') (right : read r = read r') :
    standingBy read order l r = standingBy read order l' r' := by
  simp only [standingBy, left, right]

/-- The cells have one type, and outside the frame of instants they are read alike: as doubles in one
place and as decimals of one number. -/
structure ReadsAlike (c d : Cell) : Prop where
  type : d.type = c.type
  string : readString c = readString d
  integer : readInteger c = readInteger d
  long : readLong c = readLong d
  double : Agree (fun x y : Double => x.key = y.key ∧ x.isNaN = y.isNaN) (readDouble c) (readDouble d)
  decimal : Agree (fun x y : Decimal => x.toRat = y.toRat) (readDecimal c) (readDecimal d)

/-- Operands that are read alike stand to each other alike. -/
theorem standing_of_readsAlike (left : l.ReadsAlike l') (right : r.ReadsAlike r')
    (instants : ColumnType.frame l.type r.type = .timestamp →
      readTimestamp l = readTimestamp l' ∧ readTimestamp r = readTimestamp r') :
    standing l r = standing l' r' := by
  simp only [standing, left.type, right.type]
  split
  · rfl
  · rfl
  · exact standingBy_of_eq left.string right.string
  · rename_i frame
    obtain ⟨left, right⟩ := instants frame
    exact standingBy_of_eq left right
  · exact standingBy_of_eq left.integer right.integer
  · exact standingBy_of_eq left.long right.long
  · refine standingBy_congr left.double right.double ?_
    intro a a' b b' ha hb
    simp only [Double.compare?, ha, hb]
  · refine standingBy_congr left.decimal right.decimal ?_
    intro a a' b b' ha hb
    rw [Decimal.compare_eq_cmp, Decimal.compare_eq_cmp, ha, hb]

theorem compareFor_congr {kind : Kind} {comparator : Comparator} (left : l.isNull = l'.isNull)
    (right : r.isNull = r'.isNull) (same : standing l r = standing l' r') :
    compareFor kind comparator l r = compareFor kind comparator l' r' := by
  simp only [compareFor, left, right, same]

theorem readsAlike_of_carried (h : c.Carried d) : c.ReadsAlike d where
  type := h.type_eq
  string := read_of_carried h (fun _ _ _ => rfl) fun _ _ _ _ => rfl
  integer := read_of_carried h (fun _ _ _ => rfl) fun _ _ _ _ => rfl
  long := read_of_carried h (fun _ _ _ => rfl) fun _ _ _ millis => by simp only [readLong, millis]
  double := by
    have same : readDouble c = readDouble d :=
      read_of_carried h (fun _ _ _ => rfl) fun _ _ _ millis => by simp only [readDouble, millis]
    rw [same]
    exact agree_refl (fun _ => ⟨rfl, rfl⟩) _
  decimal := readDecimal_of_carried h

/-- Carried operands stand to each other as before, when those compared as instants match. -/
theorem standing_of_carried (left : l.Carried l') (right : r.Carried r')
    (instants : ColumnType.frame l.type r.type = .timestamp → l.Matches l' ∧ r.Matches r') :
    standing l r = standing l' r' := by
  refine standing_of_readsAlike (readsAlike_of_carried left) (readsAlike_of_carried right) ?_
  intro frame
  obtain ⟨left, right⟩ := instants frame
  exact ⟨readTimestamp_of_matches left, readTimestamp_of_matches right⟩

end Cell

/-! ## Trees read back -/

namespace Expr

/-- The tree is no literal of an instant that is not whole. -/
def Whole : Expr → Prop
  | literal c => ∀ t ∈ c.value.instant?, t.Whole
  | _ => True

end Expr

instance : (e : Expr) → Decidable e.Whole
  | .literal c => inferInstanceAs (Decidable (∀ t ∈ c.value.instant?, t.Whole))
  | .column _ | .nullTest _ _ | .comparison _ _ _ | .member _ _ _ | .logic _ _ _ | .not _ =>
    isTrue trivial

/-- The operands of the pair are whole where they are compared as instants. -/
def Pair.Whole (p : Pair) : Prop :=
  ColumnType.frame p.left.tag p.right.tag = .timestamp → p.left.Whole ∧ p.right.Whole

instance (p : Pair) : Decidable p.Whole := inferInstanceAs (Decidable (_ → _ ∧ _))

namespace Expr

variable {e e' : Expr} {row : Row} {a b : Cell}

theorem alike_carried (h : e.Alike Cell.Ships e') : e.Alike Cell.Carried e' :=
  h.imp (self_mem_nodes e) fun _ _ _ ships => .inr ships

/-- A tree that is whole gives a matching cell. -/
theorem matches_of_evaluate (alike : e.Alike Cell.Carried e') (whole : e.Whole)
    (ha : e.evaluate row = .ok a) (hb : e'.evaluate row = .ok b) (carried : a.Carried b) :
    a.Matches b := by
  rcases truth_of_evaluate ha with ⟨c, rfl⟩ | ⟨c, rfl⟩ | ⟨t, rfl⟩
  · rw [evaluate_literal] at ha
    cases ha
    rcases carried with rfl | ships
    · exact Cell.matches_refl b
    · exact ships.matches_of_whole fun t ht => whole t (by rw [ht]; rfl)
  · cases alike
    rw [ha] at hb
    cases hb
    exact Cell.matches_refl a
  · rcases carried with rfl | ships
    · exact Cell.matches_refl _
    · exact ships.matches_of_whole fun _ impossible => by cases impossible

theorem steady_of_whole {p : Pair} (whole : p.Whole) : p.Steady Cell.Carried row := by
  intro left right l l' r r' alikel aliker hl hl' hr hr' carriedl carriedr comparator
  have same : Cell.standing l r = Cell.standing l' r' := by
    refine Cell.standing_of_carried carriedl carriedr ?_
    intro frame
    rw [type_of_evaluate hl, type_of_evaluate hr] at frame
    obtain ⟨wholel, wholer⟩ := whole frame
    exact ⟨matches_of_evaluate alikel wholel hl hl' carriedl,
      matches_of_evaluate aliker wholer hr hr' carriedr⟩
  exact Cell.compareFor_congr (Cell.interchangeable_carried.isNull_eq carriedl)
    (Cell.interchangeable_carried.isNull_eq carriedr) same

end Expr

namespace Plan

open Time (Instant)

/-- **A filter read back from its bytes decides like the original** on every row, when only whole
instants are compared as instants.  Both trees give the same fault or matching cells, unless the
root is itself an instant that is not whole. -/
theorem shipped_filter_agrees {e e' : Expr} (countable : (encode e).length < UInt64.size)
    (decoded : decode (encode e) = .ok e') (whole : ∀ p ∈ e.pairs, p.Whole) :
    (∀ row, (e.Whole → Agree Cell.Matches (e.evaluate row) (e'.evaluate row)) ∧
      (Filter.mk e').keeps row = (Filter.mk e).keeps row) ∧
      ∀ rows, (Filter.mk e').select rows = (Filter.mk e).select rows := by
  rw [decode_encode countable] at decoded
  have alike := Expr.alike_carried (alike_of_ship decoded)
  have steady : ∀ row, ∀ p ∈ e.pairs, p.Steady Cell.Carried row := fun row p mem =>
    Expr.steady_of_whole (whole p mem)
  have keeps : ∀ row, (Filter.mk e').keeps row = (Filter.mk e).keeps row := fun row =>
    Filter.keeps_alike Cell.interchangeable_carried alike (steady row)
  refine ⟨fun row => ⟨fun root => ?_, keeps row⟩, fun rows => ?_⟩
  · have agree := Expr.agree_evaluate Cell.interchangeable_carried (Expr.self_mem_nodes e) alike
      (steady row)
    exact agree.imp fun a b ha hb carried => Expr.matches_of_evaluate alike root ha hb carried
  · exact Filter.selectFrom_congr (fun row _ => keeps row) 0

/-- One nanosecond after 1970-01-01 00:00:00. -/
def firstNano : Instant := ⟨0, 1, by decide, by decide, by decide, by decide⟩

/-- `0.000000001 s = ts`, which no longer holds of that instant after the nanosecond is cut. -/
def subMilliEquals : Expr :=
  .comparison .equals (.ofValue (.timestamp firstNano)) (.column ⟨0, .timestamp, none⟩)

theorem subMilliEquals_changes :
    ∃ e', decode (encode subMilliEquals) = .ok e' ∧
      (Filter.mk subMilliEquals).keeps [.timestamp firstNano] = .ok true ∧
      (Filter.mk e').keeps [.timestamp firstNano] = .ok false := by
  have decoded : decode (encode subMilliEquals) = ship subMilliEquals :=
    decode_encode (by decide +kernel)
  refine ⟨_, decoded, rfl, ?_⟩
  rfl

/-- `0.000000001 s < n OR 1 s < ts OR n IN (-123e+20, NULL)`: a long reads the first instant. -/
def millisOr : Expr :=
  .logic .or
    (.logic .or
      (.comparison .lessThan (.ofValue (.timestamp firstNano)) (.column ⟨0, .long, none⟩))
      (.comparison .lessThan
        (.ofValue (.timestamp ⟨1, 0, by decide, by decide, by decide, by decide⟩))
        (.column ⟨1, .timestamp, none⟩)))
    (.member false (.column ⟨0, .long, none⟩) [.ofValue (.decimal ⟨-123, -20⟩), .null .long])

theorem millisOr_agrees :
    (encode millisOr).length < UInt64.size ∧ (∀ p ∈ millisOr.pairs, p.Whole) ∧
      ∃ e', decode (encode millisOr) = .ok e' ∧
        (∀ row, (Filter.mk e').keeps row = (Filter.mk millisOr).keeps row) := by
  have countable : (encode millisOr).length < UInt64.size := by
    simp only [millisOr, Expr.ofValue, Expr.null, encode, encodeItems, cell, column, value, content,
      text, optional, Cell.of, Cell.null, String.toList_ofList]
    decide +kernel
  have whole : ∀ p ∈ millisOr.pairs, p.Whole := by decide
  have decoded : decode (encode millisOr) = ship millisOr := decode_encode countable
  refine ⟨countable, whole, _, decoded, ?_⟩
  have agrees := shipped_filter_agrees countable decoded whole
  exact fun row => (agrees.1 row).2

end Plan

end RowFilter
