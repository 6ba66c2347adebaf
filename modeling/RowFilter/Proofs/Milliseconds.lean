import RowFilter.Time.Instant

/-!
# Proofs.Milliseconds — instants cut to the millisecond

`t.CutTo u` says that `u` is the instant of the milliseconds of `t`, and spells it out: nanoseconds
are cut, before 1970 too, and a leap second becomes the same part of the second after it.  The count
of milliseconds is kept, a whole instant is its own cut, and only the last second of all has a leap
second without a cut (`cut_exists_iff`).
-/

namespace RowFilter.Time.Instant

set_option autoImplicit false

/-- The instant is a whole number of milliseconds and in no leap second. -/
def Whole (t : Instant) : Prop := t.nano < nanosPerSecond ∧ t.nano % nanosPerMilli = 0

instance (t : Instant) : Decidable t.Whole := inferInstanceAs (Decidable (_ ∧ _))

/-- The second instant is that of the milliseconds of the first. -/
structure CutTo (t u : Instant) : Prop where
  millis : ofEpochMillis? t.epochMillis = some u
  second : u.second = t.second + (t.nano / nanosPerSecond : Nat)
  nano : u.nano = t.nano % nanosPerSecond / nanosPerMilli * nanosPerMilli

theorem epochMillis_of_millis {n : Int} {t : Instant} (h : ofEpochMillis? n = some t) :
    t.epochMillis = n := by
  obtain ⟨second, nano⟩ := of?_eq_some_iff.mp h
  rw [epochMillis, second, nano]
  simp only [nanosPerMilli]
  omega

theorem second_of_millis (t : Instant) :
    t.epochMillis / 1000 = t.second + (t.nano / nanosPerSecond : Nat) := by
  simp only [epochMillis, nanosPerSecond, nanosPerMilli]
  omega

theorem nano_of_millis (t : Instant) :
    (t.epochMillis % 1000).toNat = t.nano % nanosPerSecond / nanosPerMilli := by
  have millis : t.epochMillis % 1000 = (t.nano % nanosPerSecond / nanosPerMilli : Nat) := by
    simp only [epochMillis, nanosPerSecond, nanosPerMilli]
    omega
  rw [millis, Int.toNat_natCast]

theorem cutTo_of_millis {t u : Instant} (h : ofEpochMillis? t.epochMillis = some u) :
    t.CutTo u := by
  obtain ⟨second, nano⟩ := of?_eq_some_iff.mp h
  rw [second_of_millis] at second
  rw [nano_of_millis] at nano
  exact ⟨h, second, nano⟩

theorem CutTo.epochMillis_eq {t u : Instant} (h : t.CutTo u) : u.epochMillis = t.epochMillis := by
  obtain ⟨-, second, nano⟩ := h
  simp only [nanosPerSecond, nanosPerMilli] at second nano
  simp only [epochMillis, nanosPerMilli]
  omega

theorem Whole.cut_eq {t u : Instant} (whole : t.Whole) (h : t.CutTo u) : u = t := by
  obtain ⟨-, second, nano⟩ := h
  obtain ⟨small, exact⟩ := whole
  simp only [nanosPerSecond, nanosPerMilli] at second nano small exact
  apply Instant.ext <;> omega

/-- An instant that its milliseconds stand for is whole. -/
theorem whole_of_millis {t : Instant} (h : ofEpochMillis? t.epochMillis = some t) : t.Whole := by
  have nano := (cutTo_of_millis h).nano
  rw [Whole, nano]
  refine ⟨?_, Nat.mul_mod_left _ _⟩
  simp only [nanosPerSecond, nanosPerMilli]
  omega

theorem isSome_of? (s : Int) (nano : Nat) :
    (of? s nano).isSome = true ↔ firstSecond ≤ s ∧ s ≤ lastSecond ∧ nano < 2 * nanosPerSecond ∧
      (nanosPerSecond ≤ nano → s % 60 = 59) := by
  unfold of?
  split <;> simp_all

/-- Only the leap second after the last second has no cut. -/
theorem cut_exists_iff (t : Instant) :
    (ofEpochMillis? t.epochMillis).isSome = true ↔
      ¬ (t.second = lastSecond ∧ nanosPerSecond ≤ t.nano) := by
  have first := t.first_le
  have last := t.le_last
  have nano := t.nano_lt
  rw [ofEpochMillis?, isSome_of?, second_of_millis, nano_of_millis]
  simp only [nanosPerSecond, nanosPerMilli, lastSecond, firstSecond] at *
  omega

end RowFilter.Time.Instant
