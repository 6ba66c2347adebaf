import RowFilter.Proofs.Canonical
import RowFilter.Proofs.Typing

/-!
# Proofs.Tags — the types that the literals of a plan claim

A plan holds the type of a literal and its value in two fields, and no reader compares them.  What is
written from well tagged literals is read back well tagged, and no other bytes are; but any types can
be written in front of the values of a plan, and are read as they are (`decode_takes_tags_as_written`).
The checker goes by the type and evaluation by the value, so bytes can be read as a tree that is
accepted as a filter and fails on every row (`mistagged_fails`).
-/

namespace RowFilter

set_option autoImplicit false

section WellTagged

variable {c d : Cell}

theorem Value.isNull_eq_type (v : Value) : v.isNull = (v.type == .null) := by
  cases v <;> rfl

theorem Value.Ships.type_eq {v w : Value} (h : v.Ships w) : w.type = v.type := by
  cases v with
  | decimal x =>
      obtain ⟨y, rfl, -⟩ := h
      rfl
  | timestamp t =>
      obtain ⟨u, rfl, -⟩ := h
      rfl
  | _ =>
      cases h
      rfl

theorem Cell.wellTagged_congr (type : d.type = c.type) (kind : d.value.type = c.value.type) :
    c.WellTagged ↔ d.WellTagged := by
  simp only [Cell.WellTagged, Value.fits, Value.isNull_eq_type, type, kind]

theorem Cell.Ships.wellTagged_iff (h : c.Ships d) : c.WellTagged ↔ d.WellTagged :=
  Cell.wellTagged_congr h.1 h.2.type_eq

theorem Cell.Matches.wellTagged_iff (h : c.Matches d) : c.WellTagged ↔ d.WellTagged := by
  obtain ⟨type, same | ⟨x, y, hc, hd, -⟩⟩ := h
  · exact Cell.wellTagged_congr type (by rw [same])
  · exact Cell.wellTagged_congr type (by rw [hc, hd]; rfl)

end WellTagged

namespace Plan

/-! ## Retagged trees -/

section Retagged

variable {e r : Expr}

theorem compatible_size : Compatible fun a b => a.length = b.length where
  refl _ := rfl
  append := by
    intro a b c d first second
    rw [List.length_append, List.length_append, first, second]

/-- All types take the same room. -/
theorem length_encode_retagged (h : e.Alike (fun c d => d.value = c.value) r) :
    (encode r).length = (encode e).length := by
  refine related_of_alike compatible_size (h.imp (Expr.self_mem_nodes e) fun c _ d same => ?_)
  simp only [cell, columnType, List.length_append, length_choice, same]

theorem instants_retagged (h : e.Alike (fun c d => d.value = c.value) r) :
    r.instants = e.instants := by
  have values := Expr.alike_literals h
  unfold Expr.instants
  generalize e.literals = written, r.literals = retagged at values
  induction values with
  | nil => rfl
  | cons first _ ih => rw [List.filterMap_cons, List.filterMap_cons, first, ih]

end Retagged

/-! ## Reading types -/

/-- **The types of the literals in a plan are read as they are written.**  They are well tagged
exactly if the plan is read like one that was written from well tagged literals, and a plan that is
read can be written, and is read again, with any other types in their place. -/
theorem decode_takes_tags_as_written {bytes : Bytes} {e : Expr}
    (short : bytes.length < addressable) (decoded : decode bytes = .ok e) :
    ((∀ c ∈ e.literals, c.WellTagged) ↔
      ∃ origin e', (∀ c ∈ origin.literals, c.WellTagged) ∧ (encode origin).length < UInt64.size ∧
        decode (encode origin) = .ok e' ∧ e.Alike Cell.Matches e') ∧
      ∀ r, e.Alike (fun c d => d.value = c.value) r →
        ∃ r', decode (encode r) = .ok r' ∧ r.Alike Cell.Matches r' := by
  obtain ⟨countable, millis⟩ := bounds_of_decode short decoded
  refine ⟨⟨fun tagged => ?_, ?_⟩, fun r retagged => ?_⟩
  · obtain ⟨e', -, again, alike⟩ := again_of_millis countable millis
    exact ⟨e, e', tagged, countable, again, alike⟩
  · rintro ⟨origin, e', tagged, countable, again, alike⟩
    rw [decode_encode countable] at again
    have shipped := Expr.alike_literals (alike_of_ship again)
    have matched := Expr.alike_literals alike
    have back := (Expr.forall_iff_of_forall₂ shipped fun _ _ ships => ships.wellTagged_iff).mp tagged
    exact (Expr.forall_iff_of_forall₂ matched fun _ _ same => same.wellTagged_iff).mpr back
  · rw [← length_encode_retagged retagged] at countable
    rw [← instants_retagged retagged] at millis
    obtain ⟨r', -, again, alike⟩ := again_of_millis countable millis
    exact ⟨r', again, alike⟩

/-- A literal of type boolean with the integer 5. -/
def mistagged : Bytes := [0, 0, 0, 0, 1, 0, 0, 0, 2, 0, 0, 0, 5, 0, 0, 0]

def mistaggedTree : Expr := .literal ⟨.boolean, .integer 5⟩

theorem mistagged_has_no_origin :
    mistagged.length < addressable ∧ decode mistagged = .ok mistaggedTree ∧
      (¬ ∃ origin e', (∀ c ∈ origin.literals, c.WellTagged) ∧
        (encode origin).length < UInt64.size ∧ decode (encode origin) = .ok e' ∧
        mistaggedTree.Alike Cell.Matches e') ∧
      ∃ r', decode (encode (.literal ⟨.decimal, .integer 5⟩)) = .ok r' := by
  have short : mistagged.length < addressable := by decide
  have decoded : decode mistagged = .ok mistaggedTree := rfl
  have untagged : ¬ ∀ c ∈ mistaggedTree.literals, c.WellTagged := by decide
  obtain ⟨tagged, retagged⟩ := decode_takes_tags_as_written short decoded
  obtain ⟨r', again, -⟩ := retagged (.literal ⟨.decimal, .integer 5⟩) (.literal rfl)
  exact ⟨short, decoded, tagged.not.mp untagged, r', again⟩

/-- The checker accepts what was read as a filter for every schema, and it fails on every row. -/
theorem mistagged_fails :
    ∃ e, decode mistagged = .ok e ∧ (∃ c ∈ e.literals, ¬ c.WellTagged) ∧
      (∀ schema, Filter.ofSchema schema e = .ok ⟨e⟩) ∧
      ∀ row, ∃ fault, (Filter.mk e).keeps row = .error fault :=
  ⟨mistaggedTree, rfl, by decide, fun _ => rfl, fun _ => ⟨_, rfl⟩⟩

end Plan

end RowFilter
