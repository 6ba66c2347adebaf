import RowFilter.Proofs.Columns
import RowFilter.Proofs.Twins

/-!
# Proofs.Description — what is shown of a tree that was read back

Nothing that is shown of a filter sees what a plan loses: a settled decimal has its old text, and an
instant is printed to the millisecond, to which it is cut, before 1970 too.  Only a leap second is
shown as what it becomes, the second after it (`text_of_cut_iff`).  So a tree without leap seconds has
the same text, kind, columns and children after it is read back, and is checked against every schema
with the same outcome (`description_survives`).
-/

namespace RowFilter

set_option autoImplicit false

/-! ## Instants as text -/

namespace Time.Instant

variable {t u : Instant}

/-- The text of an instant ends in a colon, its second, and a point with its milliseconds. -/
theorem text_eq (t : Instant) :
    ∃ minutes, t.text = minutes ++
      ':' :: Text.padded 2 ((t.second % 86400).toNat % 60 + t.nano / nanosPerSecond) ++
      '.' :: Text.padded 3 (t.nano % nanosPerSecond / nanosPerMilli) :=
  ⟨_, rfl⟩

theorem text_of_cut (cut : t.CutTo u) (plain : t.nano < nanosPerSecond) : u.text = t.text := by
  obtain ⟨-, second, nano⟩ := cut
  have unleaped : t.nano / nanosPerSecond = 0 := Nat.div_eq_of_lt plain
  have millis : u.nano % nanosPerSecond / nanosPerMilli = t.nano % nanosPerSecond / nanosPerMilli := by
    rw [nano]
    simp only [nanosPerSecond, nanosPerMilli]
    omega
  have whole : u.nano / nanosPerSecond = t.nano / nanosPerSecond := by
    rw [nano, unleaped]
    simp only [nanosPerSecond, nanosPerMilli]
    omega
  rw [unleaped, Nat.cast_zero, add_zero] at second
  simp only [text, second, millis, whole]

/-- A leap second has the second `60`, and its cut the second `0`. -/
theorem text_ne_of_cut (cut : t.CutTo u) (leap : nanosPerSecond ≤ t.nano) : u.text ≠ t.text := by
  intro same
  obtain ⟨-, second, nano⟩ := cut
  have atMinute := t.leap_at_minute leap
  have short := t.nano_lt
  have before : (t.second % 86400).toNat % 60 + t.nano / nanosPerSecond = 60 := by
    simp only [nanosPerSecond] at *
    omega
  have behind : (u.second % 86400).toNat % 60 + u.nano / nanosPerSecond = 0 := by
    rw [second, nano]
    simp only [nanosPerSecond, nanosPerMilli] at *
    omega
  obtain ⟨minutes, ht⟩ := t.text_eq
  obtain ⟨minutes', hu⟩ := u.text_eq
  rw [ht, hu, before, behind] at same
  have millis : ∀ n : Nat, ('.' :: Text.padded 3 (n % nanosPerSecond / nanosPerMilli)).length = 4 := by
    intro n
    have lt : n % nanosPerSecond / nanosPerMilli < 1000 := by
      simp only [nanosPerSecond, nanosPerMilli]
      omega
    rw [List.length_cons, Text.length_padded (by decide) lt]
  have upToSecond := (List.append_inj' same ((millis _).trans (millis _).symm)).1
  have seconds := (List.append_inj' upToSecond rfl).2
  exact absurd seconds (by decide)

/-- **An instant is shown alike after it is cut to the millisecond, unless it is in a leap second.** -/
theorem text_of_cut_iff (cut : t.CutTo u) : u.text = t.text ↔ t.nano < nanosPerSecond := by
  constructor
  · intro same
    by_contra leap
    exact text_ne_of_cut cut (not_lt.mp leap) same
  · exact text_of_cut cut

end Time.Instant

/-! ## Trees -/

namespace Expr

/-- Nothing that is shown of a tree, or found by checking it, tells the second from the first. -/
structure LooksLike (e e' : Expr) : Prop where
  text : e'.text = e.text
  kind : e'.kind = e.kind
  isConstant : e'.isConstant = e.isConstant
  columns : e'.columns = e.columns
  children : e'.children.map Expr.text = e.children.map Expr.text
  check : ∀ schema, e'.check schema = e.check schema
  checkFilter : ∀ schema, e'.checkFilter schema = e.checkFilter schema

theorem Alike.looksLike {e e' : Expr} (h : e.Alike Cell.Twin e') : e.LooksLike e' where
  text := h.text_eq
  kind := h.kind_eq
  isConstant := by
    have same : e'.occurrences = e.occurrences := h.congr compositional_occurrences fun _ _ _ => rfl
    rw [Bool.eq_iff_iff, isConstant_iff, isConstant_iff, same]
  columns := h.columns_eq
  children := by
    have each := (alike_children h).flip.imp fun _ _ alike => alike.text_eq
    rwa [← List.forall₂_eq_eq_eq, List.forall₂_map_left_iff, List.forall₂_map_right_iff]
  check _ := h.check_eq
  checkFilter _ := h.checkFilter_eq

end Expr

namespace Plan

open Time (Instant)

/-- **A tree without leap seconds is shown and checked as before when it is read back.**  Its decimals
have their old text whatever their digits and scale, and its instants are cut only below what is
printed of them; for an instant in a leap second that is not so. -/
theorem description_survives {e e' : Expr} (countable : (encode e).length < UInt64.size)
    (plain : ∀ t ∈ e.instants, t.nano < Time.nanosPerSecond)
    (decoded : decode (encode e) = .ok e') :
    e.LooksLike e' ∧
      (∀ d : Decimal, ∃ d', Decimal.read d.text = .ok d' ∧ d'.text = d.text) ∧
      ∀ t u : Instant, Instant.ofEpochMillis? t.epochMillis = some u →
        (u.text = t.text ↔ t.nano < Time.nanosPerSecond) := by
  rw [decode_encode countable] at decoded
  refine ⟨?_, fun d => ⟨d.settled, d.read_text, d.text_settled⟩, fun t u cut => ?_⟩
  · refine Expr.Alike.looksLike (alike_twin_of_shown decoded ?_)
    intro t mem u cut
    exact Instant.text_of_cut cut (plain t mem)
  · exact Instant.text_of_cut_iff (Instant.cutTo_of_millis cut)

/-- `ts IN (two seconds and a nanosecond before 1970, 15e1)`; a plan keeps neither instant nor scale. -/
def earlyIn : Expr :=
  .member false (.column ⟨0, .timestamp, some "ts"⟩)
    [.ofValue (.timestamp ⟨-3, 999999999, by decide, by decide, by decide, by decide⟩),
      .ofValue (.decimal ⟨15, -1⟩)]

theorem earlyIn_looks_alike :
    (encode earlyIn).length < UInt64.size ∧
      (∀ t ∈ earlyIn.instants, t.nano < Time.nanosPerSecond) ∧
      ∃ e', decode (encode earlyIn) = .ok e' ∧ e'.same earlyIn = false ∧ earlyIn.LooksLike e' ∧
        e'.text = "In(Column(ts),[Literal(1969-12-31 23:59:57.999),Literal(150)])" ∧
        e'.checkFilter [.timestamp] = .ok () ∧
        e'.checkFilter [.integer] = .error (.columnTypeMismatch 0 .timestamp .integer) := by
  have countable : (encode earlyIn).length < UInt64.size := by
    simp only [earlyIn, Expr.ofValue, encode, encodeItems, cell, column, value, content, text,
      optional, Cell.of, String.toList_ofList]
    decide +kernel
  have plain : ∀ t ∈ earlyIn.instants, t.nano < Time.nanosPerSecond := by decide
  have decoded : decode (encode earlyIn) = ship earlyIn := decode_encode countable
  have alike := (description_survives countable plain decoded).1
  refine ⟨countable, plain, _, decoded, rfl, alike, alike.text.trans ?_, ?_, ?_⟩
  · decide +kernel
  · rw [alike.checkFilter]
    rfl
  · rw [alike.checkFilter]
    rfl

end Plan

end RowFilter
