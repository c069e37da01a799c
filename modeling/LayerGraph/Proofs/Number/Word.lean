import LayerGraph.Number.Word
import Mathlib.Algebra.Order.Ring.Nat
import Mathlib.Data.List.Perm.Basic

/-!
# Arithmetic that stops at the greatest word

A sum that was stopped stays at the greatest word, so the order of the summands does not matter.
More generally, sums and products of clipped numbers are the clipped sums and products, so it is
the same to stop at every step and to stop once at the end.
-/

namespace LayerGraph

namespace Word

theorem toNat_addClipped (a b : UInt64) :
    (addClipped a b).toNat = min (a.toNat + b.toNat) (UInt64.size - 1) :=
  toNat_clip _

theorem addClipped_right_comm (a b c : UInt64) :
    addClipped (addClipped a b) c = addClipped (addClipped a c) b := by
  apply UInt64.toNat_inj.mp
  simp only [toNat_addClipped, UInt64.size]
  omega

instance : RightCommutative addClipped :=
  ⟨addClipped_right_comm⟩

theorem toNat_mulClipped (a b : UInt64) :
    (mulClipped a b).toNat = min (a.toNat * b.toNat) (UInt64.size - 1) :=
  toNat_clip _

theorem clip_toNat (a : UInt64) : clip a.toNat = a := by
  apply UInt64.toNat_inj.mp
  have bound := a.toNat_lt_size
  rw [toNat_clip]
  omega

theorem addClipped_clip (m n : Nat) : addClipped (clip m) (clip n) = clip (m + n) := by
  apply UInt64.toNat_inj.mp
  simp only [toNat_addClipped, toNat_clip, UInt64.size]
  omega

/-- Factors may be stopped before they are multiplied. One that was stopped makes the product reach
the bound, unless the other factor is zero. -/
theorem min_mul_min (m n : Nat) {bound : Nat} (positive : 0 < bound) :
    min (min m bound * min n bound) bound = min (m * n) bound := by
  -- A stopped factor times one that is not zero is at the bound on both sides.
  have stopped {a b : Nat} (high : bound ≤ a) (some : 0 < b) : bound ≤ a * b :=
    high.trans (Nat.le_mul_of_pos_right a some)
  rcases Nat.eq_zero_or_pos m with rfl | someM
  · simp
  rcases Nat.eq_zero_or_pos n with rfl | someN
  · simp
  rcases Nat.lt_or_ge m bound with low | high
  · rcases Nat.lt_or_ge n bound with low' | high'
    · rw [min_eq_left low.le, min_eq_left low'.le]
    · rw [min_eq_left low.le, min_eq_right high', Nat.mul_comm, Nat.mul_comm m]
      rw [min_eq_right (stopped le_rfl someM), min_eq_right (stopped high' someM)]
  · have least : 0 < min n bound := lt_min someN positive
    rw [min_eq_right high, min_eq_right (stopped le_rfl least), min_eq_right (stopped high someN)]

theorem mulClipped_clip (m n : Nat) : mulClipped (clip m) (clip n) = clip (m * n) := by
  apply UInt64.toNat_inj.mp
  rw [toNat_mulClipped, toNat_clip, toNat_clip, toNat_clip]
  exact min_mul_min m n (by decide)

/-- Stopping at every summand is stopping once at the end. -/
theorem foldl_addClipped_clip (counts : List Nat) (total : Nat) :
    (counts.map clip).foldl addClipped (clip total) = clip (total + counts.sum) := by
  induction counts generalizing total with
  | nil => rfl
  | cons count rest ih =>
    rw [List.map_cons, List.foldl_cons, addClipped_clip, ih, List.sum_cons, Nat.add_assoc]

end Word

end LayerGraph
