import LayerGraph.Number.Word
import Mathlib.Algebra.Order.Ring.Int

/-!
# Arithmetic that notices overflow

An operation with a check yields a word exactly if that word is the true result. The operations
without one yield the true result wherever it is a word.
-/

namespace LayerGraph

namespace Word

/-- The natural numbers that are words. -/
theorem exists_toNat_and_iff {n : Nat} {P : Nat → Prop} :
    (∃ word : UInt64, word.toNat = n ∧ P word.toNat) ↔ n < UInt64.size ∧ P n := by
  constructor
  · rintro ⟨word, rfl, holds⟩
    exact ⟨word.toNat_lt_size, holds⟩
  · rintro ⟨bound, holds⟩
    have same := UInt64.toNat_ofNat_of_lt' bound
    exact ⟨UInt64.ofNat n, same, same.symm ▸ holds⟩

theorem times?_eq_some_iff {a b c : UInt64} :
    times? a b = some c ↔ c.toNat = a.toNat * b.toNat := by
  have exact_ (bound : a.toNat * b.toNat < UInt64.size) : (a * b).toNat = a.toNat * b.toNat := by
    rw [UInt64.toNat_mul]
    exact Nat.mod_eq_of_lt bound
  unfold times?
  split
  · rename_i bound
    rw [Option.some_inj, ← UInt64.toNat_inj, exact_ bound]
    exact eq_comm
  · rename_i large
    refine iff_of_false nofun fun same => large ?_
    exact same ▸ c.toNat_lt_size

theorem exists_toInt {n : Int} (low : -2 ^ 63 ≤ n) (high : n < 2 ^ 63) :
    ∃ word : Int64, word.toInt = n :=
  ⟨Int64.ofInt n, Int64.toInt_ofInt_of_le low high⟩

theorem signed?_eq_some_iff {n : Int} {word : Int64} : signed? n = some word ↔ word.toInt = n := by
  unfold signed?
  rw [Int64.toInt_minValue, Int64.toInt_maxValue]
  split
  · rename_i bounds
    have same : (Int64.ofInt n).toInt = n := Int64.toInt_ofInt_of_le bounds.1 (by omega)
    rw [Option.some_inj, ← Int64.toInt_inj, same]
    exact eq_comm
  · rename_i outside
    have least := word.le_toInt
    have greatest := word.toInt_lt
    refine iff_of_false nofun fun same => outside ?_
    omega

theorem toSigned?_eq_some_iff {n : UInt64} {word : Int64} :
    toSigned? n = some word ↔ word.toInt = n.toNat :=
  signed?_eq_some_iff

theorem add?_eq_some_iff {a b c : Int64} : add? a b = some c ↔ c.toInt = a.toInt + b.toInt :=
  signed?_eq_some_iff

theorem sub?_eq_some_iff {a b c : Int64} : sub? a b = some c ↔ c.toInt = a.toInt - b.toInt :=
  signed?_eq_some_iff

theorem mul?_eq_some_iff {a b c : Int64} : mul? a b = some c ↔ c.toInt = a.toInt * b.toInt :=
  signed?_eq_some_iff

theorem toInt_add_of_bounds {a b : Int64} (low : -2 ^ 63 ≤ a.toInt + b.toInt)
    (high : a.toInt + b.toInt < 2 ^ 63) : (a + b).toInt = a.toInt + b.toInt := by
  rw [Int64.toInt_add]
  exact Int.bmod_eq_of_le (by omega) (by omega)

theorem toNat_toUInt64 {word : Int64} (nonneg : 0 ≤ word.toInt) :
    (word.toUInt64.toNat : Int) = word.toInt := by
  have sign : 0 ≤ word := Int64.le_iff_toInt_le.mpr nonneg
  rw [Int64.toNat_toUInt64_of_le sign]
  exact Int.toNat_of_nonneg nonneg

theorem toInt_toInt64 {word : UInt64} (small : word.toNat < 2 ^ 63) :
    word.toInt64.toInt = word.toNat := by
  change word.toBitVec.toInt = word.toBitVec.toNat
  refine BitVec.toInt_eq_toNat_of_lt ?_
  rw [UInt64.toNat_toBitVec]
  omega

/-- Divided by a positive word, no word leaves the range. -/
theorem toInt_floorDiv {a b : Int64} (positive : 0 < b.toInt) :
    (floorDiv a b).toInt = a.toInt / b.toInt := by
  have least := a.le_toInt
  have greatest := a.toInt_lt
  rw [floorDiv, Int.fdiv_eq_ediv_of_nonneg _ positive.le]
  refine Int64.toInt_ofInt_of_le ?_ ?_
  · rw [Int.le_ediv_iff_mul_le positive]
    omega
  · rw [Int.ediv_lt_iff_lt_mul positive]
    omega

end Word

end LayerGraph
