import Mathlib.Data.String.Basic
import Mathlib.Order.Compare

/-!
# Proofs.Lexicographic — orders decided in turn

What is compared part by part is in the order `o.then p`: that of the first parts, and of what follows where
they are equal.  Numbers are in such an order where the first part decides whatever follows it
(`compare_then`), and lists where the parts in front are of one length (`compare_append`).  What is
embedded keeps its order (`compare_of_lt_iff`).
-/

namespace RowFilter

set_option autoImplicit false

section

variable {α β : Type}

theorem compare_of_lt_iff [Ord α] [Ord β] [Std.OrientedOrd α] [Std.OrientedOrd β] {f : α → β}
    (lt : ∀ a b, Ord.compare (f a) (f b) = .lt ↔ Ord.compare a b = .lt) (a b : α) :
    Ord.compare (f a) (f b) = Ord.compare a b := by
  have there := lt a b
  have back := lt b a
  rw [← Std.OrientedCmp.gt_iff_lt, ← Std.OrientedCmp.gt_iff_lt] at back
  cases order : Ord.compare a b with
  | lt => exact there.mpr order
  | gt => exact back.mpr order
  | eq =>
      rw [order] at there back
      cases embedded : Ord.compare (f a) (f b) with
      | lt => exact absurd (there.mp embedded) nofun
      | gt => exact absurd (back.mp embedded) nofun
      | eq => rfl

section Linear

variable [LinearOrder α] [LinearOrder β] {x y : α} {i j : β} {o : Ordering}

/-- What is in the order of two others, and in the order `o` where these are equal. -/
theorem compare_then (below : x < y → i < j) (above : y < x → j < i)
    (same : x = y → Ord.compare i j = o) : Ord.compare i j = (Ord.compare x y).then o := by
  rcases lt_trichotomy x y with less | equal | greater
  · rw [compare_lt_iff_lt.mpr less, compare_lt_iff_lt.mpr (below less)]
    rfl
  · rw [compare_eq_iff_eq.mpr equal, same equal]
    rfl
  · rw [compare_gt_iff_gt.mpr greater, compare_gt_iff_gt.mpr (above greater)]
    rfl

theorem compare_congr (below : x < y → i < j) (above : y < x → j < i) (same : x = y → i = j) :
    Ord.compare i j = Ord.compare x y :=
  (compare_then below above fun equal => compare_eq_iff_eq.mpr (same equal)).trans Ordering.then_eq

end Linear

/-! ## Lists -/

variable [Ord α]

theorem compare_append {s t : List α} (same : s.length = t.length) (u v : List α) :
    Ord.compare (s ++ u) (t ++ v) = (Ord.compare s t).then (Ord.compare u v) := by
  induction s generalizing t with
  | nil =>
      obtain rfl := List.eq_nil_of_length_eq_zero same.symm
      rfl
  | cons a s ih =>
      cases t with
      | nil => cases same
      | cons b t =>
          rw [List.cons_append, List.cons_append, List.compare_cons_cons, List.compare_cons_cons,
            ih (Nat.succ.inj same), Ordering.then_assoc]

theorem compare_cons_self [Std.ReflOrd α] (a : α) (u v : List α) :
    Ord.compare (a :: u) (a :: v) = Ord.compare u v := by
  have same : Ord.compare a a = .eq := Std.ReflCmp.compare_self
  rw [List.compare_cons_cons, same]
  rfl

end

end RowFilter
