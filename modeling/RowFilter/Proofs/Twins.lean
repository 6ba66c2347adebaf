import RowFilter.Command.Run
import RowFilter.Proofs.Shipping

/-!
# Proofs.Twins — trees that look the same

A function that sees nothing of the trees below a node but what it makes of them cannot tell trees
apart that are alike, unless it can tell their literals apart (`Alike.congr`).  Text, columns and the
check against a schema are such functions, so a filter that was written and read back is shown and
checked like the original, as long as it has no instants.
-/

namespace RowFilter

set_option autoImplicit false

namespace Expr

/-! ## Functions that are made up of their values below -/

/-- The function sees nothing of the trees below a node but what it makes of them. -/
structure Compositional {α : Type} (F : Expr → α) : Prop where
  nullTest : ∀ (test : NullTest) {e e' : Expr}, F e' = F e →
    F (.nullTest test e') = F (.nullTest test e)
  comparison : ∀ (c : Comparator) {l l' r r' : Expr}, F l' = F l → F r' = F r →
    F (.comparison c l' r') = F (.comparison c l r)
  member : ∀ (negated : Bool) {p p' : Expr} {es es' : List Expr}, F p' = F p →
    es'.map F = es.map F → F (.member negated p' es') = F (.member negated p es)
  logic : ∀ (c : Connective) {l l' r r' : Expr}, F l' = F l → F r' = F r →
    F (.logic c l' r') = F (.logic c l r)
  not : ∀ {e e' : Expr}, F e' = F e → F (.not e') = F (.not e)

section Congruence

variable {R : Cell → Cell → Prop} {e e' : Expr}

theorem Alike.congr {α : Type} {F : Expr → α} (composed : Compositional F)
    (literal : ∀ c d, R c d → F (.literal d) = F (.literal c)) (h : e.Alike R e') : F e' = F e := by
  induction e generalizing e' with
  | literal c =>
      cases h with
      | literal related => exact literal c _ related
  | column c =>
      cases h
      rfl
  | nullTest test operand ih =>
      cases h with
      | nullTest _ h => exact composed.nullTest test (ih h)
  | comparison c l r ihl ihr =>
      cases h with
      | comparison _ left right => exact composed.comparison c (ihl left) (ihr right)
  | member negated probe items ihp ihi =>
      cases h with
      | member _ head rest =>
          have each := (forall₂_imp rest fun item mem _ => ihi item mem).flip
          refine composed.member negated (ihp head) ?_
          rwa [← List.forall₂_eq_eq_eq, List.forall₂_map_left_iff, List.forall₂_map_right_iff]
  | logic c l r ihl ihr =>
      cases h with
      | logic _ left right => exact composed.logic c (ihl left) (ihr right)
  | not operand ih =>
      cases h with
      | not h => exact composed.not (ih h)

/-! ## Text and columns -/

theorem compositional_text : Compositional text where
  nullTest test _ _ same := by simp only [text, same]
  comparison c _ _ _ _ left right := by simp only [text, left, right]
  member negated _ _ es es' probe items := by simp only [text, texts_eq, probe, items]
  logic c _ _ _ _ left right := by simp only [text, left, right]
  not same := by simp only [text, same]

theorem compositional_occurrences : Compositional occurrences where
  nullTest test _ _ same := same
  comparison c _ _ _ _ left right := by simp only [occurrences, left, right]
  member negated _ _ es es' probe items := by
    simp only [occurrences, occurrencesIn_eq, List.flatMap_def, probe, items]
  logic c _ _ _ _ left right := by simp only [occurrences, left, right]
  not same := same

/-! ## Checking -/

section Check

variable {schema : Schema}

theorem requireComparable_congr {node node' : Expr} (text : node'.text = node.text)
    (l r : ColumnType) : requireComparable node' l r = requireComparable node l r := by
  simp only [requireComparable, text]

theorem requireTruth_congr {node node' : Expr} (text : node'.text = node.text)
    (kind : node'.kind = node.kind) (t : ColumnType) : requireTruth node' t = requireTruth node t := by
  simp only [requireTruth, text, kind]

theorem checkItems_congr {node node' : Expr} (text : node'.text = node.text) (probe : ColumnType)
    {items items' : List Expr} (same : items'.map (check schema) = items.map (check schema)) :
    checkItems schema node' probe items' = checkItems schema node probe items := by
  induction items generalizing items' with
  | nil =>
      rw [List.map_nil, List.map_eq_nil_iff] at same
      rw [same]
      rfl
  | cons item more ih =>
      obtain ⟨item', more', rfl, first, rest⟩ := List.map_eq_cons_iff.mp same
      simp only [checkItems, first, requireComparable_congr text, ih rest]

/-- A fault shows the node that it is found at, so the text goes with the check. -/
theorem compositional_check (schema : Schema) :
    Compositional fun e => (e.text, check schema e) where
  nullTest test e e' same := by
    obtain ⟨text, check⟩ := Prod.mk.inj same
    simp only [Expr.text, Expr.check, text, check]
  comparison c l l' r r' left right := by
    obtain ⟨textl, checkl⟩ := Prod.mk.inj left
    obtain ⟨textr, checkr⟩ := Prod.mk.inj right
    have text := compositional_text.comparison c textl textr
    simp only [Expr.check, text, checkl, checkr, requireComparable_congr text]
  member negated p p' es es' probe items := by
    obtain ⟨textp, checkp⟩ := Prod.mk.inj probe
    have texts : es'.map Expr.text = es.map Expr.text := by
      have first := congrArg (List.map Prod.fst) items
      rw [List.map_map, List.map_map] at first
      exact first
    have checks : es'.map (Expr.check schema) = es.map (Expr.check schema) := by
      have second := congrArg (List.map Prod.snd) items
      rw [List.map_map, List.map_map] at second
      exact second
    have text := compositional_text.member negated textp texts
    have empty : es'.isEmpty = es.isEmpty := by
      rw [← List.isEmpty_map (f := Expr.text), texts, List.isEmpty_map]
    simp only [Expr.check, text, checkp, empty, checkItems_congr text _ checks]
  logic c l l' r r' left right := by
    obtain ⟨textl, checkl⟩ := Prod.mk.inj left
    obtain ⟨textr, checkr⟩ := Prod.mk.inj right
    have text := compositional_text.logic c textl textr
    simp only [Expr.check, text, checkl, checkr, requireTruth_congr text rfl]
  not same := by
    obtain ⟨textOperand, check⟩ := Prod.mk.inj same
    have text := compositional_text.not textOperand
    simp only [Expr.check, text, check, requireTruth_congr text rfl]

end Check

end Congruence

end Expr

/-! ## Trees without instants -/

/-- The cells have one type, and their values one text. -/
structure Cell.Twin (c d : Cell) : Prop where
  type : d.type = c.type
  text : d.value.text = c.value.text

namespace Expr

section Alike

variable {R : Cell → Cell → Prop} {schema : Schema} {e e' : Expr}

theorem Alike.text_eq (h : e.Alike Cell.Twin e') : e'.text = e.text := by
  refine h.congr compositional_text ?_
  intro c d twin
  simp only [text, twin.text]

theorem Alike.columns_eq (h : e.Alike R e') : e'.columns = e.columns := by
  have same : e'.occurrences = e.occurrences := h.congr compositional_occurrences fun _ _ _ => rfl
  rw [columns, columns, same]

theorem Alike.check_eq (h : e.Alike Cell.Twin e') : check schema e' = check schema e := by
  have both : (e'.text, check schema e') = (e.text, check schema e) := by
    refine h.congr (compositional_check schema) ?_
    intro c d twin
    simp only [text, check, twin.text, twin.type]
  exact (Prod.mk.inj both).2

theorem Alike.checkFilter_eq (h : e.Alike Cell.Twin e') :
    checkFilter schema e' = checkFilter schema e := by
  rw [checkFilter, checkFilter, h.check_eq, h.text_eq]

end Alike

variable {e : Expr}

theorem no_instant_of_mem (timeless : e.instants = []) {c : Cell} (mem : c ∈ e.literals) :
    c.value.instant? = none := by
  cases h : c.value.instant? with
  | none => rfl
  | some t =>
      have found : t ∈ e.instants := List.mem_filterMap.mpr ⟨c, mem, h⟩
      rw [timeless] at found
      cases found

theorem whole_of_timeless (timeless : e.instants = []) {n : Expr} (mem : n ∈ e.nodes) : n.Whole := by
  cases n with
  | literal c =>
      intro t instant
      rw [no_instant_of_mem timeless (mem_literals.mpr mem)] at instant
      cases instant
  | _ => trivial

theorem pairs_whole (timeless : e.instants = []) : ∀ p ∈ e.pairs, p.Whole := by
  intro p mem _
  obtain ⟨left, right⟩ := operands_mem_nodes mem
  exact ⟨whole_of_timeless timeless left, whole_of_timeless timeless right⟩

end Expr

namespace Plan

variable {e e' : Expr}

/-- What is read back for a cell looks like it, if its instant is shown alike after the cut. -/
theorem twin_of_shipCell {c d : Cell} (h : shipCell c = .ok d)
    (shown : ∀ t, c.value = .timestamp t → ∀ u, t.CutTo u → u.text = t.text) : c.Twin d := by
  obtain ⟨w, shipped, rfl⟩ := map_eq_ok.mp h
  refine ⟨rfl, ?_⟩
  cases hv : c.value with
  | decimal x =>
      rw [hv] at shipped
      cases shipped
      simp only [Value.text, x.text_settled]
  | timestamp t =>
      rw [hv] at shipped
      obtain ⟨u, rfl, cut⟩ := ships_of_shipValue shipped
      simp only [Value.text, shown t hv u cut]
  | _ =>
      rw [hv] at shipped
      cases shipped
      rfl

/-- A tree looks the same after it is read back, if its instants are shown alike after the cut. -/
theorem alike_twin_of_shown (shipped : ship e = .ok e')
    (shown : ∀ t ∈ e.instants, ∀ u, t.CutTo u → u.text = t.text) : e.Alike Cell.Twin e' :=
  (alike_shipCell shipped).imp (Expr.self_mem_nodes e) fun _ mem _ h =>
    twin_of_shipCell h fun t value => shown t (Expr.mem_instants mem value)

/-- A tree without instants looks the same after it is read back. -/
theorem alike_twin (shipped : ship e = .ok e') (timeless : e.instants = []) :
    e.Alike Cell.Twin e' :=
  alike_twin_of_shown shipped fun t mem => by
    rw [timeless] at mem
    cases mem

/-- A filter without instants decides on every row as before when it is read back. -/
theorem keeps_of_ship (shipped : ship e = .ok e') (timeless : e.instants = []) (row : Row) :
    (Filter.mk e').keeps row = (Filter.mk e).keeps row := by
  have alike := Expr.alike_carried (alike_of_ship shipped)
  apply Filter.keeps_alike Cell.interchangeable_carried alike
  exact fun p mem => Expr.steady_of_whole (Expr.pairs_whole timeless p mem)

end Plan

end RowFilter
