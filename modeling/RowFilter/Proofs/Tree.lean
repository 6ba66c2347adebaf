import RowFilter.Expr.Evaluation

/-!
# Proofs.Tree — what filter trees are made of

`nodes` lists all nodes of a tree, `literals` the cells of its literals, and `pairs` the operands
that a comparison or a membership node compares with each other.  A property of every node of a tree
is a property of the root and of every node below a child (`mem_nodes`).  `treeInduction` is
induction over trees, with the claim for each item at a membership node.
-/

namespace RowFilter

set_option autoImplicit false

/-- Two operands that a node of the kind compares with each other. -/
structure Pair where
  kind : Kind
  left : Expr
  right : Expr

namespace Expr

@[elab_as_elim, induction_eliminator]
theorem treeInduction {motive : Expr → Prop}
    (literal : ∀ c, motive (.literal c))
    (column : ∀ c, motive (.column c))
    (nullTest : ∀ test e, motive e → motive (.nullTest test e))
    (comparison : ∀ c l r, motive l → motive r → motive (.comparison c l r))
    (member : ∀ negated probe items, motive probe → (∀ item ∈ items, motive item) →
      motive (.member negated probe items))
    (logic : ∀ c l r, motive l → motive r → motive (.logic c l r))
    (not : ∀ e, motive e → motive (.not e)) (e : Expr) : motive e := by
  refine @Expr.rec motive (fun items => ∀ item ∈ items, motive item) literal column nullTest
    comparison member logic not ?_ ?_ e
  · intro item h
    simp at h
  · intro item more hitem hmore other h
    rcases List.mem_cons.mp h with rfl | h
    · exact hitem
    · exact hmore other h

/-- Induction over trees where all nodes are treated alike. -/
@[elab_as_elim]
theorem childInduction {motive : Expr → Prop}
    (step : ∀ e, (∀ c ∈ e.children, motive c) → motive e) (e : Expr) : motive e := by
  induction e with
  | literal _ => exact step _ (by simp [children])
  | column _ => exact step _ (by simp [children])
  | nullTest test operand ih => exact step _ (by simpa [children] using ih)
  | comparison c l r ihl ihr => exact step _ (by simpa [children] using ⟨ihl, ihr⟩)
  | member negated probe items ihp ihi => exact step _ (by simpa [children] using ⟨ihp, ihi⟩)
  | logic c l r ihl ihr => exact step _ (by simpa [children] using ⟨ihl, ihr⟩)
  | not operand ih => exact step _ (by simpa [children] using ih)

/-! ## Nodes -/

mutual

/-- The nodes of a tree, each before those below it. -/
def nodes : Expr → List Expr
  | literal c => [literal c]
  | column c => [column c]
  | nullTest test operand => nullTest test operand :: operand.nodes
  | comparison c left right => comparison c left right :: (left.nodes ++ right.nodes)
  | member negated probe items => member negated probe items :: (probe.nodes ++ nodesIn items)
  | logic c left right => logic c left right :: (left.nodes ++ right.nodes)
  | not operand => not operand :: operand.nodes

def nodesIn : List Expr → List Expr
  | [] => []
  | e :: more => e.nodes ++ nodesIn more

end

theorem nodesIn_eq (es : List Expr) : nodesIn es = es.flatMap nodes := by
  induction es with
  | nil => rfl
  | cons e more ih => simp [nodesIn, ih]

theorem nodes_eq (e : Expr) : e.nodes = e :: e.children.flatMap nodes := by
  cases e <;> simp [nodes, children, nodesIn_eq]

theorem mem_nodes {e n : Expr} : n ∈ e.nodes ↔ n = e ∨ ∃ c ∈ e.children, n ∈ c.nodes := by
  rw [nodes_eq, List.mem_cons, List.mem_flatMap]

theorem self_mem_nodes (e : Expr) : e ∈ e.nodes := mem_nodes.mpr (.inl rfl)

/-- With a node its children are in the tree. -/
theorem child_mem_nodes {e n c : Expr} (h : n ∈ e.nodes) (child : c ∈ n.children) :
    c ∈ e.nodes := by
  induction e using childInduction with
  | step e ih =>
      rcases mem_nodes.mp h with rfl | ⟨d, hd, h⟩
      · exact mem_nodes.mpr (.inr ⟨c, child, self_mem_nodes c⟩)
      · exact mem_nodes.mpr (.inr ⟨d, hd, ih d hd h⟩)

section Below

variable {root : Expr}

theorem below_nullTest {test : NullTest} {operand : Expr}
    (h : nullTest test operand ∈ root.nodes) : operand ∈ root.nodes :=
  child_mem_nodes h (by simp [children])

theorem below_comparison {c : Comparator} {l r : Expr} (h : comparison c l r ∈ root.nodes) :
    l ∈ root.nodes ∧ r ∈ root.nodes :=
  ⟨child_mem_nodes h (by simp [children]), child_mem_nodes h (by simp [children])⟩

theorem below_member {negated : Bool} {probe : Expr} {items : List Expr}
    (h : member negated probe items ∈ root.nodes) :
    probe ∈ root.nodes ∧ ∀ item ∈ items, item ∈ root.nodes :=
  ⟨child_mem_nodes h (by simp [children]), fun _ mem => child_mem_nodes h (by simp [children, mem])⟩

theorem below_logic {c : Connective} {l r : Expr} (h : logic c l r ∈ root.nodes) :
    l ∈ root.nodes ∧ r ∈ root.nodes :=
  ⟨child_mem_nodes h (by simp [children]), child_mem_nodes h (by simp [children])⟩

theorem below_not {operand : Expr} (h : not operand ∈ root.nodes) : operand ∈ root.nodes :=
  child_mem_nodes h (by simp [children])

end Below

/-! ## Literals and pairs -/

/-- The cell of a literal node. -/
def literal? : Expr → Option Cell
  | literal c => some c
  | _ => none

/-- The cells of the literals in the tree. -/
def literals (e : Expr) : List Cell := e.nodes.filterMap literal?

/-- The operands that a node compares. -/
def compared : Expr → List Pair
  | comparison c left right => [⟨c.kind, left, right⟩]
  | member negated probe items => items.map (⟨memberKind negated, probe, ·⟩)
  | _ => []

/-- The operands compared anywhere in the tree. -/
def pairs (e : Expr) : List Pair := e.nodes.flatMap compared

theorem mem_literals {e : Expr} {c : Cell} : c ∈ e.literals ↔ literal c ∈ e.nodes := by
  simp only [literals, List.mem_filterMap]
  constructor
  · rintro ⟨n, h, same⟩
    cases n <;> simp_all [literal?]
  · intro h
    exact ⟨_, h, rfl⟩

theorem mem_pairs {e n : Expr} {p : Pair} (h : n ∈ e.nodes) (compared : p ∈ n.compared) :
    p ∈ e.pairs :=
  List.mem_flatMap.mpr ⟨n, h, compared⟩

/-- The operands compared in a tree are in it. -/
theorem operands_mem_nodes {e : Expr} {p : Pair} (h : p ∈ e.pairs) :
    p.left ∈ e.nodes ∧ p.right ∈ e.nodes := by
  obtain ⟨n, mem, compared⟩ := List.mem_flatMap.mp h
  cases n with
  | comparison c l r =>
      cases List.mem_singleton.mp compared
      exact below_comparison mem
  | member negated probe items =>
      obtain ⟨item, among, rfl⟩ := List.mem_map.mp compared
      obtain ⟨probeIn, itemsIn⟩ := below_member mem
      exact ⟨probeIn, itemsIn item among⟩
  | _ => cases compared

end Expr

end RowFilter
