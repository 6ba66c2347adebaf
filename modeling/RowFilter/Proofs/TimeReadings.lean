import RowFilter.Proofs.Coherence
import RowFilter.Proofs.LongsAndDoubles
import RowFilter.Proofs.Milliseconds
import RowFilter.Proofs.OneType

/-!
# Proofs.TimeReadings — instants read as numbers

Beside a long, a double or a decimal an instant is read as the count of its milliseconds, and each of
the three holds that count exactly (`standing_count`).  The count follows time, with one exception.  A
leap second runs through the count of the second after it, so an instant in it is counted above those
of the next second that are not as far into their own (`overtakes_iff`).  Such a pair is reversed in
every reading; any other pair is in order in every reading, beside every number, and after it was
cut to the millisecond (`earlier_reads_lower`).
-/

namespace RowFilter

set_option autoImplicit false

namespace Time.Instant

/-- The first instant is in a leap second, and the other one in the next second, which it is not as
many milliseconds into. -/
structure Overtakes (t u : Instant) : Prop where
  leap : nanosPerSecond ≤ t.nano
  next : u.second = t.second + 1
  part : u.nano / nanosPerMilli < (t.nano - nanosPerSecond) / nanosPerMilli

section

variable {t u : Instant}

theorem compare_eq_lt_iff :
    t.compare u = .lt ↔ t.second < u.second ∨ t.second = u.second ∧ t.nano < u.nano := by
  unfold compare
  rcases lt_trichotomy t.second u.second with less | same | greater
  · rw [compare_lt_iff_lt.mpr less]
    simp [less]
  · rw [compare_eq_iff_eq.mpr same]
    simp [same, compare_lt_iff_lt]
  · rw [compare_gt_iff_gt.mpr greater]
    simp [greater.not_gt, greater.ne']

/-- **Out of a leap second, and only so, an earlier instant has the greater count.** -/
theorem overtakes_iff (before : t.compare u = .lt) :
    u.epochMillis < t.epochMillis ↔ t.Overtakes u := by
  have nano := t.nano_lt
  have nano' := u.nano_lt
  rw [compare_eq_lt_iff] at before
  simp only [epochMillis, nanosPerSecond, nanosPerMilli] at nano nano' ⊢
  constructor
  · intro reversed
    have leap : 1000000000 ≤ t.nano := by omega
    have next : u.second = t.second + 1 := by omega
    refine ⟨leap, next, ?_⟩
    simp only [nanosPerSecond, nanosPerMilli]
    omega
  · rintro ⟨leap, next, part⟩
    simp only [nanosPerSecond, nanosPerMilli] at leap part
    omega

theorem CutTo.whole (h : t.CutTo u) : u.Whole := by
  refine whole_of_millis ?_
  rw [h.epochMillis_eq]
  exact h.millis

theorem lt_iff_of_whole (left : t.Whole) (right : u.Whole) :
    t.compare u = .lt ↔ t.epochMillis < u.epochMillis := by
  obtain ⟨small, exact⟩ := left
  obtain ⟨small', exact'⟩ := right
  simp only [nanosPerSecond, nanosPerMilli] at small exact small' exact'
  rw [compare_eq_lt_iff]
  simp only [epochMillis, nanosPerMilli]
  omega

/-- Whole instants are in the order of their counts. -/
theorem compare_whole (left : t.Whole) (right : u.Whole) :
    t.compare u = cmp t.epochMillis u.epochMillis := by
  have back : u.compare t = (t.compare u).swap := Option.some.inj (swaps_compare t u)
  have less := lt_iff_of_whole left right
  have greater := lt_iff_of_whole right left
  cases order : t.compare u with
  | lt => exact (less.mp order).cmp_eq_lt.symm
  | gt =>
      rw [order] at back
      exact (greater.mp back).cmp_eq_gt.symm
  | eq =>
      rw [order] at back
      have same : t.epochMillis = u.epochMillis := by
        refine le_antisymm (not_lt.mp fun h => ?_) (not_lt.mp fun h => ?_)
        · rw [greater.mpr h] at back
          cases back
        · rw [less.mpr h] at order
          cases order
      rw [same, cmp_self_eq_eq]

theorem natAbs_epochMillis (t : Instant) : t.epochMillis.natAbs ≤ 2 * Double.fractions := by
  have low := t.first_le
  have high := t.le_last
  have nano := t.nano_lt
  simp only [firstSecond, lastSecond, nanosPerSecond] at low high nano
  simp only [epochMillis, nanosPerMilli, Double.fractions]
  omega

theorem toInt_epochMillis (t : Instant) : (Int64.ofInt t.epochMillis).toInt = t.epochMillis := by
  have narrow := natAbs_epochMillis t
  simp only [Double.fractions] at narrow
  refine Int64.toInt_ofInt_of_le ?_ ?_ <;> omega

end

end Time.Instant

open Time (Instant)

namespace Place

theorem cmp_number (x y : ℚ) : cmp (number x) (number y) = cmp x y :=
  StrictMono.cmp_map_eq (fun _ _ => number_lt_number.mpr) x y

theorem cmp_count (m n : Int) : cmp (number m) (number n) = cmp m n := by
  rw [cmp_number, ← Cell.compare_cast, cmp_eq_compare]

end Place

namespace Value

open Place (number)

/-- Where a value stands beside an exact number; a NaN stands nowhere. -/
def ownPlace? : Value → Option Place
  | double d => if d.isNaN then none else some d.ownPlace
  | v => v.rational?.map number

/-- The comparator holds between two instants in each way to read their counts, and after both are
cut. -/
structure Readings (c : Comparator) (t u : Instant) : Prop where
  long : ∃ m n, Cell.readLong (.of (.timestamp t)) = .ok m ∧
    Cell.readLong (.of (.timestamp u)) = .ok n ∧ c.Relates m.toInt n.toInt
  double : ∃ x y, Cell.readDouble (.of (.timestamp t)) = .ok x ∧
    Cell.readDouble (.of (.timestamp u)) = .ok y ∧ c.holds (x.compare? y) = true
  decimal : ∃ x y, Cell.readDecimal (.of (.timestamp t)) = .ok x ∧
    Cell.readDecimal (.of (.timestamp u)) = .ok y ∧ c.Relates x.toRat y.toRat
  cut : ∀ t' u', t.CutTo t' → u.CutTo u' →
    Cell.compare c (.of (.timestamp t')) (.of (.timestamp u')) = .ok true

/-- No comparison with the value puts the first instant behind the second. -/
structure KeepsOrder (t u : Instant) (w : Value) : Prop where
  atMost : AtMost (.timestamp u) w → AtMost (.timestamp t) w
  less : Less (.timestamp u) w → Less (.timestamp t) w
  atLeast : AtMost w (.timestamp t) → AtMost w (.timestamp u)
  greater : Less w (.timestamp t) → Less w (.timestamp u)
  atMost_not_less : ¬ (AtMost (.timestamp u) w ∧ Less w (.timestamp t))
  less_not_atMost : ¬ (Less (.timestamp u) w ∧ AtMost w (.timestamp t))

section

variable {t u : Instant} {w : Value}

/-- The double of a count is compared as the count. -/
theorem compare?_count (t : Instant) (d : Double) :
    (Double.ofInt t.epochMillis).compare? d =
      (ownPlace? (.double d)).map (cmp (number t.epochMillis)) := by
  have narrow := t.natAbs_epochMillis
  have rounded := Double.isNaN_ofInt (narrow.trans (by decide))
  rw [Double.compare?, rounded, Bool.false_or, ownPlace?]
  by_cases nan : d.isNaN = true
  · rw [if_pos nan, if_pos nan]
    rfl
  · have real : d.isNaN = false := Bool.not_eq_true _ ▸ nan
    rw [if_neg nan, if_neg nan, Option.map_some, ← cmp_eq_compare,
      ← Double.cmp_ownPlace rounded real, Double.ownPlace_ofInt narrow]

theorem readings_iff (c : Comparator) (t u : Instant) :
    Readings c t u ↔ c.Relates t.epochMillis u.epochMillis := by
  constructor
  · rintro ⟨⟨m, n, hm, hn, related⟩, -, -, -⟩
    cases hm
    cases hn
    rwa [t.toInt_epochMillis, u.toInt_epochMillis] at related
  · intro related
    refine ⟨⟨_, _, rfl, rfl, ?_⟩, ⟨_, _, rfl, rfl, ?_⟩, ⟨_, _, rfl, rfl, ?_⟩, ?_⟩
    · rwa [t.toInt_epochMillis, u.toInt_epochMillis]
    · have narrow := u.natAbs_epochMillis
      have rounded := Double.isNaN_ofInt (narrow.trans (by decide))
      rw [compare?_count, ownPlace?, rounded, if_neg Bool.false_ne_true, Option.map_some,
        Double.ownPlace_ofInt narrow, Place.cmp_count, c.holds_cmp_iff]
      exact related
    · rw [Cell.toRat_ofInt, Cell.toRat_ofInt, ← c.holds_cmp_iff, ← Cell.compare_cast,
        ← cmp_eq_compare, c.holds_cmp_iff]
      exact related
    · intro t' u' cut cut'
      have holds : c.holds (some (t'.compare u')) = true := by
        rw [Instant.compare_whole cut.whole cut'.whole, c.holds_cmp_iff, cut.epochMillis_eq,
          cut'.epochMillis_eq]
        exact related
      exact congrArg Except.ok holds

section Numbers

variable (numeric : w.type = .long ∨ w.type = .double ∨ w.type = .decimal)

include numeric

/-- **Beside a long, a double or a decimal an instant stands as the count of its milliseconds.** -/
theorem standing_count (t : Instant) :
    Cell.standing (.of (.timestamp t)) (.of w) =
      .ok (.ofOption (w.ownPlace?.map (cmp (number t.epochMillis)))) := by
  cases w with
  | long n =>
      have order : Ord.compare (Int64.ofInt t.epochMillis).toInt n.toInt =
          cmp (number t.epochMillis) (number n.toInt) := by
        rw [t.toInt_epochMillis, Place.cmp_count, cmp_eq_compare]
      exact congrArg (fun o => Except.ok (Cell.Standing.ordered o)) order
  | double d => exact congrArg (fun o => Except.ok (Cell.Standing.ofOption o)) (compare?_count t d)
  | decimal x =>
      have order : (Decimal.ofInt t.epochMillis).compare x =
          cmp (number t.epochMillis) (number x.toRat) := by
        rw [Decimal.compare_eq_cmp, Cell.toRat_ofInt, Place.cmp_number]
      exact congrArg (fun o => Except.ok (Cell.Standing.ordered o)) order
  | _ => simp [type] at numeric

theorem compare_count (t : Instant) (c : Comparator) :
    Cell.compare c (.of (.timestamp t)) (.of w) =
        .ok (c.holds (w.ownPlace?.map (cmp (number t.epochMillis)))) ∧
      Cell.compare c.swap (.of w) (.of (.timestamp t)) =
        .ok (c.holds (w.ownPlace?.map (cmp (number t.epochMillis)))) := by
  have full : (Cell.of (.timestamp t)).isNull = false := rfl
  have full' : (Cell.of w).isNull = false := by
    cases w <;> first | rfl | simp [type] at numeric
  have there := standing_count numeric t
  have back := Cell.standing_swap (Cell.wellTagged_of _) (Cell.wellTagged_of _) full full'
  rw [there] at back
  rw [Cell.compare, Cell.compare, Cell.compareFor_full full full', Cell.compareFor_full full' full,
    there, back, ← Cell.satisfies_ofOption]
  refine ⟨rfl, ?_⟩
  show Except.ok ((Cell.Standing.ofOption _).swap.satisfies c.swap) = _
  rw [Cell.satisfies_swap]

/-- Beside a value with a place, a comparison is that of the count with the place. -/
theorem compare_place {z : Place} (place : w.ownPlace? = some z) (t : Instant) (c : Comparator) :
    (Cell.compare c (.of (.timestamp t)) (.of w) = .ok true ↔ c.Relates (number t.epochMillis) z) ∧
      (Cell.compare c.swap (.of w) (.of (.timestamp t)) = .ok true ↔
        c.Relates (number t.epochMillis) z) := by
  obtain ⟨there, back⟩ := compare_count numeric t c
  rw [there, back, place, Option.map_some, Except.ok.injEq, c.holds_cmp_iff]
  exact ⟨Iff.rfl, Iff.rfl⟩

/-- A NaN is neither above nor below an instant. -/
theorem compare_nowhere (nowhere : w.ownPlace? = none) (t : Instant) (c : Comparator)
    (ordering : c.holds none = false) :
    Cell.compare c (.of (.timestamp t)) (.of w) ≠ .ok true ∧
      Cell.compare c.swap (.of w) (.of (.timestamp t)) ≠ .ok true := by
  obtain ⟨there, back⟩ := compare_count numeric t c
  rw [there, back, nowhere, Option.map_none, ordering]
  exact ⟨nofun, nofun⟩

/-- Two instants that are counted in their order keep it beside every number. -/
theorem keepsOrder_of_le (le : t.epochMillis ≤ u.epochMillis) : KeepsOrder t u w := by
  cases place : w.ownPlace? with
  | none =>
      have never := compare_nowhere numeric place
      have atMost : ¬ AtMost (.timestamp u) w := (never u .lessThanEquals rfl).1
      have less : ¬ Less (.timestamp u) w := (never u .lessThan rfl).1
      have atLeast : ¬ AtMost w (.timestamp t) := (never t .greaterThanEquals rfl).2
      have greater : ¬ Less w (.timestamp t) := (never t .greaterThan rfl).2
      exact ⟨fun h => absurd h atMost, fun h => absurd h less, fun h => absurd h atLeast,
        fun h => absurd h greater, fun h => atMost h.1, fun h => less h.1⟩
  | some z =>
      have order : number t.epochMillis ≤ number u.epochMillis :=
        Place.number_le_number.mpr (Int.cast_le.mpr le)
      have answers := compare_place numeric place
      have atMost (v : Instant) : AtMost (.timestamp v) w ↔ number v.epochMillis ≤ z :=
        (answers v .lessThanEquals).1
      have less (v : Instant) : Less (.timestamp v) w ↔ number v.epochMillis < z :=
        (answers v .lessThan).1
      have atLeast (v : Instant) : AtMost w (.timestamp v) ↔ z ≤ number v.epochMillis :=
        (answers v .greaterThanEquals).2
      have greater (v : Instant) : Less w (.timestamp v) ↔ z < number v.epochMillis :=
        (answers v .greaterThan).2
      constructor <;> simp only [atMost, less, atLeast, greater]
      · exact order.trans
      · exact order.trans_lt
      · exact fun h => h.trans order
      · exact fun h => h.trans_le order
      · exact fun h => absurd (order.trans h.1) h.2.not_ge
      · exact fun h => absurd (order.trans_lt h.1) h.2.not_gt

end Numbers

/-- **An earlier instant reads at most as high as a later one, unless it overtakes it.**  Then both keep
their order beside every number; an instant that overtakes another reads higher everywhere. -/
theorem earlier_reads_lower (before : Less (.timestamp t) (.timestamp u)) :
    (¬ t.Overtakes u →
        Readings .lessThanEquals t u ∧
          ∀ w : Value, w.type = .long ∨ w.type = .double ∨ w.type = .decimal → KeepsOrder t u w) ∧
      (t.Overtakes u → Readings .greaterThan t u) := by
  have holds : Comparator.lessThan.holds (some (t.compare u)) = true := Except.ok.inj before
  have earlier : t.compare u = .lt := by simpa [Comparator.holds] using holds
  rw [← Instant.overtakes_iff earlier]
  constructor
  · intro notAbove
    have le : t.epochMillis ≤ u.epochMillis := not_lt.mp notAbove
    exact ⟨(readings_iff _ t u).mpr le, fun w numeric => keepsOrder_of_le numeric le⟩
  · exact (readings_iff .greaterThan t u).mpr

/-- Half a second into a leap second is read no higher than 0.6 s after it. -/
theorem leapSecond_reads_lower :
    ∃ t u : Instant, Instant.read? "1970-01-01T00:00:60.5Z".toList = some t ∧
      Instant.read? "1970-01-01T00:01:00.6Z".toList = some u ∧
      Less (.timestamp t) (.timestamp u) ∧ ¬ t.Overtakes u ∧ Readings .lessThanEquals t u := by
  have before : Less (.timestamp ⟨59, 1500000000, by decide, by decide, by decide, by decide⟩)
      (.timestamp ⟨60, 600000000, by decide, by decide, by decide, by decide⟩) := rfl
  have apart : ¬ Instant.Overtakes ⟨59, 1500000000, by decide, by decide, by decide, by decide⟩
      ⟨60, 600000000, by decide, by decide, by decide, by decide⟩ :=
    fun overtakes => absurd overtakes.part (by decide)
  exact ⟨_, _, by rfl, by rfl, before, apart, ((earlier_reads_lower before).1 apart).1⟩

/-- Half a second into a leap second is read as 60500, and the start of the next minute as 60000: it is
before that, and above a number that this is not above. -/
theorem leapSecond_reads_higher :
    ∃ t u : Instant, Instant.read? "1970-01-01T00:00:60.5Z".toList = some t ∧
      Instant.read? "1970-01-01T00:01:00Z".toList = some u ∧
      Less (.timestamp t) (.timestamp u) ∧ Readings .greaterThan t u ∧
      AtMost (.timestamp u) (.long 60000) ∧ Less (.long 60000) (.timestamp t) := by
  refine ⟨⟨59, 1500000000, by decide, by decide, by decide, by decide⟩,
    ⟨60, 0, by decide, by decide, by decide, by decide⟩, by rfl, by rfl, by rfl, ?_, by rfl, by rfl⟩
  rw [readings_iff]
  decide

end

end Value

end RowFilter
