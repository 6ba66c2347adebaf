import RowFilter.Filter
import RowFilter.Proofs.Evaluation
import Mathlib.Data.List.Forall2

/-!
# Proofs.Alike — trees that differ in their literals

`Alike R` relates trees of one shape whose literals are related by `R` and which agree in all else.
`replace` writes new cells into the literals of a tree, or fails with the first that has none
(`gives_replace`).  Where related cells are tested alike and the compared operands compare alike,
alike trees give the same fault or related cells (`agree_evaluate`), and their filters make the same
decisions (`keeps_alike`).  A relation of which this holds wherever the cells stand is `Indistinct`.
-/

namespace RowFilter

set_option autoImplicit false

/-! ## Agreement -/

/-- The same fault or related results. -/
def Agree {ε α β : Type} (R : α → β → Prop) : Except ε α → Except ε β → Prop
  | .ok a, .ok b => R a b
  | .error fault, .error other => fault = other
  | _, _ => False

section Agreement

variable {ε α β γ δ : Type} {R : α → β → Prop} {S : γ → δ → Prop} {x : Except ε α} {y : Except ε β}

theorem agree_iff :
    Agree R x y ↔ (∃ a b, x = .ok a ∧ y = .ok b ∧ R a b) ∨
      ∃ fault, x = .error fault ∧ y = .error fault := by
  cases x <;> cases y <;> simp [Agree, eq_comm]

theorem Agree.bind {f : α → Except ε γ} {g : β → Except ε δ} (h : Agree R x y)
    (next : ∀ a b, x = .ok a → y = .ok b → R a b → Agree S (f a) (g b)) :
    Agree S (x >>= f) (y >>= g) := by
  rcases agree_iff.mp h with ⟨a, b, rfl, rfl, related⟩ | ⟨fault, rfl, rfl⟩
  · exact next a b rfl rfl related
  · rfl

theorem Agree.map {f : α → γ} {g : β → δ} (h : Agree R x y)
    (next : ∀ a b, R a b → S (f a) (g b)) : Agree S (x.map f) (y.map g) := by
  rcases agree_iff.mp h with ⟨a, b, rfl, rfl, related⟩ | ⟨fault, rfl, rfl⟩
  · exact next a b related
  · rfl

theorem Agree.imp {T : α → β → Prop} (h : Agree R x y)
    (next : ∀ a b, x = .ok a → y = .ok b → R a b → T a b) : Agree T x y := by
  rcases agree_iff.mp h with ⟨a, b, rfl, rfl, related⟩ | ⟨fault, rfl, rfl⟩
  · exact next a b rfl rfl related
  · rfl

theorem agree_refl {R : α → α → Prop} (refl : ∀ a, R a a) (x : Except ε α) : Agree R x x := by
  cases x with
  | error fault => rfl
  | ok a => exact refl a

theorem agree_eq_iff {x y : Except ε α} : Agree (· = ·) x y ↔ x = y := by
  cases x <;> cases y <;> simp [Agree]

end Agreement

namespace Expr

/-! ## Alike trees -/

/-- Two trees of one shape with related literals, which agree in all else. -/
inductive Alike (R : Cell → Cell → Prop) : Expr → Expr → Prop where
  | literal {a b : Cell} (related : R a b) : Alike R (literal a) (literal b)
  | column (c : Column) : Alike R (column c) (column c)
  | nullTest (test : NullTest) {e e' : Expr} (operand : Alike R e e') :
    Alike R (nullTest test e) (nullTest test e')
  | comparison (c : Comparator) {l l' r r' : Expr} (left : Alike R l l') (right : Alike R r r') :
    Alike R (comparison c l r) (comparison c l' r')
  | member (negated : Bool) {p p' : Expr} {es es' : List Expr} (probe : Alike R p p')
    (items : List.Forall₂ (Alike R) es es') : Alike R (member negated p es) (member negated p' es')
  | logic (c : Connective) {l l' r r' : Expr} (left : Alike R l l') (right : Alike R r r') :
    Alike R (logic c l r) (logic c l' r')
  | not {e e' : Expr} (operand : Alike R e e') : Alike R (not e) (not e')

section Alike

variable {R S : Cell → Cell → Prop} {e e' : Expr}

theorem Alike.kind_eq (h : e.Alike R e') : e'.kind = e.kind := by
  cases h <;> rfl

theorem forall₂_imp {α β : Type} {es : List α} {es' : List β} {P Q : α → β → Prop}
    (h : List.Forall₂ P es es') (imp : ∀ e ∈ es, ∀ e', P e e' → Q e e') : List.Forall₂ Q es es' :=
  ((List.forall₂_and_left _ _).mpr ⟨imp, h⟩).imp fun _ _ both => both.1 _ both.2

theorem Alike.imp {root : Expr} (h : e.Alike R e') (within : e ∈ root.nodes)
    (imp : ∀ c ∈ root.literals, ∀ d, R c d → S c d) : e.Alike S e' := by
  induction e generalizing e' with
  | literal c =>
      cases h with
      | literal related => exact .literal (imp c (mem_literals.mpr within) _ related)
  | column c =>
      cases h
      exact .column c
  | nullTest test operand ih =>
      have operandIn := below_nullTest within
      cases h with
      | nullTest _ h => exact .nullTest test (ih h operandIn)
  | comparison c l r ihl ihr =>
      obtain ⟨leftIn, rightIn⟩ := below_comparison within
      cases h with
      | comparison _ left right =>
          exact .comparison c (ihl left leftIn) (ihr right rightIn)
  | member negated probe items ihp ihi =>
      obtain ⟨probeIn, itemsIn⟩ := below_member within
      cases h with
      | member _ head rest =>
          refine .member negated (ihp head probeIn) ?_
          exact forall₂_imp rest fun item mem item' related =>
            ihi item mem related (itemsIn item mem)
  | logic c l r ihl ihr =>
      obtain ⟨leftIn, rightIn⟩ := below_logic within
      cases h with
      | logic _ left right =>
          exact .logic c (ihl left leftIn) (ihr right rightIn)
  | not operand ih =>
      have operandIn := below_not within
      cases h with
      | not h => exact .not (ih h operandIn)

theorem alike_children (h : e.Alike R e') : List.Forall₂ (Alike R) e.children e'.children := by
  cases h with
  | literal | column => exact .nil
  | nullTest _ operand | not operand => exact .cons operand .nil
  | comparison _ left right | logic _ left right => exact .cons left (.cons right .nil)
  | member _ probe items => exact .cons probe items

theorem alike_nodes (h : e.Alike R e') : List.Forall₂ (Alike R) e.nodes e'.nodes := by
  induction e using childInduction generalizing e' with
  | step e ih =>
      have below := forall₂_imp (alike_children h) fun c mem _ alike => ih c mem alike
      rw [nodes_eq, nodes_eq, List.flatMap_def, List.flatMap_def]
      refine .cons h (List.rel_flatten ?_)
      rwa [List.forall₂_map_left_iff, List.forall₂_map_right_iff]

/-- The literals of alike trees are related one by one. -/
theorem alike_literals (h : e.Alike R e') : List.Forall₂ R e.literals e'.literals := by
  refine List.rel_filterMap ?_ (alike_nodes h)
  intro n n' alike
  cases alike with
  | literal related => exact .some related
  | _ => exact .none

theorem forall_iff_of_forall₂ {α β : Type} {T : α → β → Prop} {P : α → Prop} {Q : β → Prop}
    {l : List α} {l' : List β} (h : List.Forall₂ T l l') (same : ∀ a b, T a b → (P a ↔ Q b)) :
    (∀ a ∈ l, P a) ↔ ∀ b ∈ l', Q b := by
  induction h with
  | nil => simp
  | cons first _ ih => rw [List.forall_mem_cons, List.forall_mem_cons, same _ _ first, ih]

theorem allSame_of_forall₂ {es es' : List Expr}
    (h : List.Forall₂ (fun e e' => e'.same e = true) es es') : allSame es' es = true := by
  induction h with
  | nil => rfl
  | cons head _ ih =>
      rw [allSame, head, ih]
      rfl

/-- Trees whose literals are the same are the same. -/
theorem Alike.same (h : e.Alike (fun c d => Cell.same d c = true) e') : e'.same e = true := by
  induction e generalizing e' with
  | literal c =>
      cases h with
      | literal related => rwa [Expr.same]
  | column c =>
      cases h
      simp [Expr.same]
  | nullTest test operand ih =>
      cases h with
      | nullTest _ h => simp [Expr.same, ih h]
  | comparison c l r ihl ihr =>
      cases h with
      | comparison _ left right => simp [Expr.same, ihl left, ihr right]
  | member negated probe items ihp ihi =>
      cases h with
      | member _ head rest =>
          have all := allSame_of_forall₂ (forall₂_imp rest fun item mem _ => ihi item mem)
          simp [Expr.same, ihp head, all]
  | logic c l r ihl ihr =>
      cases h with
      | logic _ left right => simp [Expr.same, ihl left, ihr right]
  | not operand ih =>
      cases h with
      | not h => rw [Expr.same, ih h]

end Alike

/-! ## Replacing literals -/

section Replace

variable {ε : Type} (f : Cell → Except ε Cell)

mutual

/-- The tree with new cells for its literals; the first literal that has none is at fault. -/
def replace : Expr → Except ε Expr
  | literal c => (f c).map literal
  | column c => .ok (column c)
  | nullTest test operand => (replace operand).map (nullTest test)
  | comparison c left right =>
    replace left >>= fun l => (replace right).map (comparison c l)
  | member negated probe items =>
    replace probe >>= fun p => (replaceIn items).map (member negated p)
  | logic c left right => replace left >>= fun l => (replace right).map (logic c l)
  | not operand => (replace operand).map not

def replaceIn : List Expr → Except ε (List Expr)
  | [] => .ok []
  | e :: more => replace e >>= fun e' => (replaceIn more).map (e' :: ·)

end

theorem replaceIn_eq (es : List Expr) : replaceIn f es = es.mapM (replace f) := by
  induction es with
  | nil => rfl
  | cons e more ih =>
      rw [replaceIn, List.mapM_cons, ih]
      rfl

theorem gives_replaceIn {bad : ε → Prop} {items : List Expr}
    (each : ∀ item ∈ items, Gives (item.Alike (f · = .ok ·)) bad (item.replace f)) :
    Gives (List.Forall₂ (Alike (f · = .ok ·)) items) bad (replaceIn f items) := by
  induction items with
  | nil => exact .nil
  | cons item more ih =>
      rw [List.forall_mem_cons] at each
      rw [replaceIn]
      refine each.1.bind ?_
      intro item' _ first
      exact (ih each.2).map fun _ rest => .cons first rest

/-- Replacing succeeds with an alike tree, or fails with a literal that has no new cell. -/
theorem gives_replace {root e : Expr} (within : e ∈ root.nodes) :
    Gives (e.Alike (f · = .ok ·)) (fun fault => ∃ c ∈ root.literals, f c = .error fault)
      (e.replace f) := by
  induction e with
  | literal c =>
      rw [replace]
      cases h : f c with
      | ok d => exact .literal h
      | error fault => exact ⟨c, mem_literals.mpr within, h⟩
  | column c => exact .column c
  | nullTest test operand ih =>
      have operandIn := below_nullTest within
      rw [replace]
      exact (ih operandIn).map fun _ h => .nullTest test h
  | comparison c l r ihl ihr =>
      obtain ⟨leftIn, rightIn⟩ := below_comparison within
      rw [replace]
      refine (ihl leftIn).bind ?_
      intro l' _ left
      exact (ihr rightIn).map fun _ h => .comparison c left h
  | member negated probe items ihp ihi =>
      obtain ⟨probeIn, itemsIn⟩ := below_member within
      rw [replace]
      refine (ihp probeIn).bind ?_
      intro p' _ head
      have all := gives_replaceIn f fun item mem => ihi item mem (itemsIn item mem)
      exact all.map fun _ rest => .member negated head rest
  | logic c l r ihl ihr =>
      obtain ⟨leftIn, rightIn⟩ := below_logic within
      rw [replace]
      refine (ihl leftIn).bind ?_
      intro l' _ left
      exact (ihr rightIn).map fun _ h => .logic c left h
  | not operand ih =>
      have operandIn := below_not within
      rw [replace]
      exact (ih operandIn).map fun _ h => .not h

end Replace

/-! ## Evaluating alike trees -/

/-- Related cells cannot be told apart by testing them, and every cell is related to itself. -/
structure Interchangeable (R : Cell → Cell → Prop) : Prop where
  refl : ∀ c, R c c
  operand : ∀ {c d}, R c d → ∀ kind, Cell.operand kind c = Cell.operand kind d

theorem Interchangeable.isNull_eq {R : Cell → Cell → Prop} (inter : Interchangeable R) {c d : Cell}
    (h : R c d) : c.isNull = d.isNull := by
  have null : ∀ c : Cell, c.isNull = true ↔ Cell.operand .not c = .ok none := by
    intro c
    rw [Cell.isNull, Value.isNull_iff, Cell.operand]
    cases c.value <;> simp
  rw [Bool.eq_iff_iff, null, null, inter.operand h]

end Expr

/-- On the row, operands alike to those of the pair compare as these do. -/
def Pair.Steady (R : Cell → Cell → Prop) (row : Row) (p : Pair) : Prop :=
  ∀ {left right : Expr} {l l' r r' : Cell}, p.left.Alike R left → p.right.Alike R right →
    p.left.evaluate row = .ok l → left.evaluate row = .ok l' → p.right.evaluate row = .ok r →
    right.evaluate row = .ok r' → R l l' → R r r' →
    ∀ comparator, Cell.compareFor p.kind comparator l r = Cell.compareFor p.kind comparator l' r'

namespace Expr

section Evaluate

variable {R : Cell → Cell → Prop} {row : Row}

/-- A search goes the same way through items that agree and compare alike with the probe. -/
theorem searchBy_alike (inter : Interchangeable R) {kind : Kind} {probe probe' : Cell}
    {items items' : List Expr}
    (agree : List.Forall₂ (fun item item' => Agree (fun c d => R c d ∧
      Cell.compareFor kind .equals probe c = Cell.compareFor kind .equals probe' d)
        (item.evaluate row) (item'.evaluate row)) items items') (s : Search) :
    searchBy row.fetch kind probe items s = searchBy row.fetch kind probe' items' s := by
  induction agree generalizing s with
  | nil => rw [searchBy_nil, searchBy_nil]
  | cons head _ ih =>
      rw [searchBy_cons, searchBy_cons, ← agree_eq_iff]
      refine head.bind ?_
      intro c d _ _ related
      obtain ⟨related, compared⟩ := related
      have stepped : s.step kind probe c = s.step kind probe' d := by
        rw [Search.step, Search.step, inter.isNull_eq related, compared]
      rw [stepped, agree_eq_iff]
      exact congrArg _ (funext ih)

/-- Alike trees give the same fault or related cells. -/
theorem agree_evaluate (inter : Interchangeable R) {root e e' : Expr} (within : e ∈ root.nodes)
    (alike : e.Alike R e') (steady : ∀ p ∈ root.pairs, p.Steady R row) :
    Agree R (e.evaluate row) (e'.evaluate row) := by
  induction e generalizing e' with
  | literal c =>
      cases alike with
      | literal related =>
          rw [evaluate_literal, evaluate_literal]
          exact related
  | column c =>
      cases alike
      exact agree_refl inter.refl _
  | nullTest test operand ih =>
      have operandIn := below_nullTest within
      cases alike with
      | nullTest _ alike =>
          rw [evaluate_nullTest, evaluate_nullTest]
          refine (ih operandIn alike).map ?_
          intro a b related
          rw [Cell.nullTest, Cell.nullTest, inter.isNull_eq related]
          exact inter.refl _
  | comparison c l r ihl ihr =>
      obtain ⟨leftIn, rightIn⟩ := below_comparison within
      cases alike with
      | comparison _ left right =>
          rw [evaluate_comparison, evaluate_comparison]
          refine (ihl leftIn left).bind ?_
          intro a a' ha ha' relatedl
          refine (ihr rightIn right).bind ?_
          intro b b' hb hb' relatedr
          have mem : ⟨c.kind, l, r⟩ ∈ root.pairs := mem_pairs within (List.mem_singleton_self _)
          have compared : Cell.compare c a b = Cell.compare c a' b' :=
            steady _ mem left right ha ha' hb hb' relatedl relatedr c
          rw [Cell.comparison, Cell.comparison, compared]
          exact agree_refl inter.refl _
  | member negated probe items ihp ihi =>
      obtain ⟨probeIn, itemsIn⟩ := below_member within
      cases alike with
      | member _ head rest =>
          rename_i probe' items'
          by_cases empty : items = []
          · subst empty
            cases rest
            rw [evaluate_member_nil, evaluate_member_nil]
            rfl
          have empty' : items' ≠ [] := by
            rintro rfl
            exact empty (List.forall₂_nil_right_iff.mp rest)
          rw [evaluate_member_of_ne_nil empty, evaluate_member_of_ne_nil empty']
          refine (ihp probeIn head).bind ?_
          intro a a' ha ha' related
          have same : searchBy row.fetch (memberKind negated) a items Search.start =
              searchBy row.fetch (memberKind negated) a' items' Search.start := by
            refine searchBy_alike inter (forall₂_imp rest fun item mem item' alike => ?_) _
            refine (ihi item mem (itemsIn item mem) alike).imp
              fun b b' hb hb' relatedi => ⟨relatedi, ?_⟩
            have pair : ⟨memberKind negated, probe, item⟩ ∈ root.pairs :=
              mem_pairs within (List.mem_map_of_mem mem)
            exact steady _ pair head alike ha ha' hb hb' related relatedi .equals
          have outcome : ∀ s : Search, s.outcome negated a = s.outcome negated a' := fun s => by
            rw [Search.outcome, Search.outcome, inter.isNull_eq related]
          simp only [same, outcome]
          exact agree_refl inter.refl _
  | logic c l r ihl ihr =>
      obtain ⟨leftIn, rightIn⟩ := below_logic within
      cases alike with
      | logic _ left right =>
          rw [evaluate_logic, evaluate_logic]
          refine (ihl leftIn left).bind ?_
          intro a a' _ _ relatedl
          refine (ihr rightIn right).bind ?_
          intro b b' _ _ relatedr
          rw [Cell.logic, Cell.logic, inter.operand relatedl, inter.operand relatedr]
          exact agree_refl inter.refl _
  | not operand ih =>
      have operandIn := below_not within
      cases alike with
      | not alike =>
          rw [evaluate_not, evaluate_not]
          refine (ih operandIn alike).bind ?_
          intro a a' _ _ related
          rw [Cell.not, Cell.not, inter.operand related]
          exact agree_refl inter.refl _

end Evaluate

end Expr

namespace Filter

/-! ## Filters of alike trees -/

theorem decide_eq_of_operand {c d : Cell} (h : Cell.operand .not c = Cell.operand .not d)
    (root : Kind) : decide root c = decide root d := by
  simp only [Cell.operand] at h
  unfold decide
  cases hc : c.value <;> cases hd : d.value <;> rw [hc, hd] at h <;> simp_all

theorem keeps_alike {R : Cell → Cell → Prop} (inter : Expr.Interchangeable R) {e e' : Expr}
    {row : Row} (alike : e.Alike R e') (steady : ∀ p ∈ e.pairs, p.Steady R row) :
    (mk e').keeps row = (mk e).keeps row := by
  have agree := Expr.agree_evaluate inter (Expr.self_mem_nodes e) alike steady
  simp only [keeps, alike.kind_eq]
  rcases agree_iff.mp agree with ⟨a, b, ha, hb, related⟩ | ⟨fault, ha, hb⟩
  · rw [ha, hb]
    exact (decide_eq_of_operand (inter.operand related .not) _).symm
  · rw [ha, hb]

theorem selectFrom_congr {f g : Filter} {rows : List Row}
    (same : ∀ row ∈ rows, g.keeps row = f.keeps row) (n : Nat) :
    g.selectFrom n rows = f.selectFrom n rows := by
  induction rows generalizing n with
  | nil => rfl
  | cons row more ih =>
      rw [List.forall_mem_cons] at same
      simp only [selectFrom, same.1, ih same.2]

end Filter

/-! ## Cells that no operation tells apart -/

/-- Related cells are tested alike and compare alike, with whatever they stand beside. -/
structure Indistinct (R : Cell → Cell → Prop) : Prop extends Expr.Interchangeable R where
  compareFor : ∀ {l l' r r'}, R l l' → R r r' → ∀ kind comparator,
    Cell.compareFor kind comparator l r = Cell.compareFor kind comparator l' r'

section Indistinct

variable {R : Cell → Cell → Prop} {e e' : Expr}

theorem Indistinct.steady (indistinct : Indistinct R) (p : Pair) (row : Row) : p.Steady R row :=
  fun _ _ _ _ _ _ left right => indistinct.compareFor left right p.kind

theorem Indistinct.agree (indistinct : Indistinct R) (alike : e.Alike R e') (row : Row) :
    Agree R (e.evaluate row) (e'.evaluate row) :=
  Expr.agree_evaluate indistinct.toInterchangeable (Expr.self_mem_nodes e) alike fun p _ =>
    indistinct.steady p row

theorem Indistinct.keeps (indistinct : Indistinct R) (alike : e.Alike R e') (row : Row) :
    (Filter.mk e').keeps row = (Filter.mk e).keeps row :=
  Filter.keeps_alike indistinct.toInterchangeable alike fun p _ => indistinct.steady p row

theorem Indistinct.select (indistinct : Indistinct R) (alike : e.Alike R e') (rows : List Row) :
    (Filter.mk e').select rows = (Filter.mk e).select rows :=
  Filter.selectFrom_congr (fun row _ => indistinct.keeps alike row) 0

end Indistinct

end RowFilter
