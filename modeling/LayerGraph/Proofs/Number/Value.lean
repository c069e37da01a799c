import LayerGraph.Json.Value
import Mathlib.Algebra.Order.Field.Power
import Mathlib.Data.Rat.Cast.Order
import Mathlib.Tactic.FieldSimp
import Mathlib.Tactic.Linarith
import Mathlib.Tactic.Positivity

/-!
# Exact values of numbers

The rational number that a JSON number stands for. Rounding a word to binary64 never takes it
below the power of two under it, so the rounded number lies in the unit interval only if the
word does.
-/

namespace LayerGraph

namespace Binary64

def magnitude (x : Binary64) : ℚ :=
  x.significand * 2 ^ x.exponent

def value (x : Binary64) : ℚ :=
  if x.negative then -x.magnitude else x.magnitude

theorem magnitude_nonneg (x : Binary64) : 0 ≤ x.magnitude := by
  unfold magnitude
  positivity

theorem powerOfTwo_eq (e : Int) : powerOfTwo e = (2 ^ e.toNat, 2 ^ (-e).toNat) := by
  rw [powerOfTwo, Nat.one_shiftLeft, Nat.one_shiftLeft]

theorem zpow_eq_powerOfTwo (e : Int) :
    (2 : ℚ) ^ e = ((powerOfTwo e).1 : ℚ) / ((powerOfTwo e).2 : ℚ) := by
  rcases le_total 0 e with nonneg | nonpos
  · obtain ⟨n, rfl⟩ := Int.eq_ofNat_of_zero_le nonneg
    simp [powerOfTwo_eq]
  · obtain ⟨n, same⟩ := Int.eq_ofNat_of_zero_le (Int.neg_nonneg.mpr nonpos)
    obtain rfl : e = -n := by omega
    simp [powerOfTwo_eq]

theorem powerOfTwo_pos (e : Int) : 0 < (powerOfTwo e).1 ∧ 0 < (powerOfTwo e).2 := by
  simp [powerOfTwo_eq]

/-- Scaled to `b` places behind its first one, a number has `b + 1` binary digits. -/
theorem scaled_bounds {n b : Nat} {e : Int} (nonzero : n ≠ 0) (place : e + b = n.log2) :
    2 ^ b * (powerOfTwo e).1 ≤ n * (powerOfTwo e).2 ∧
      n * (powerOfTwo e).2 < 2 ^ (b + 1) * (powerOfTwo e).1 := by
  have power : 2 ^ b * (powerOfTwo e).1 = 2 ^ n.log2 * (powerOfTwo e).2 := by
    simp only [powerOfTwo_eq, ← pow_add]
    congr 1
    omega
  have down := (powerOfTwo_pos e).2
  constructor
  · rw [power]
    exact Nat.mul_le_mul_right _ (Nat.log2_self_le nonzero)
  · calc n * (powerOfTwo e).2 < 2 ^ (n.log2 + 1) * (powerOfTwo e).2 :=
          Nat.mul_lt_mul_of_pos_right Nat.lt_log2_self down
      _ = 2 ^ (b + 1) * (powerOfTwo e).1 := by
          rw [pow_succ, pow_succ, Nat.mul_right_comm, ← power, Nat.mul_right_comm]

theorem magnitude_eq_zero_iff (x : Binary64) : x.magnitude = 0 ↔ x.significand = 0 := by
  simp [magnitude, zpow_ne_zero]

theorem magnitude_lt_one_iff (x : Binary64) : x.magnitude < 1 ↔
    x.significand * (powerOfTwo x.exponent).1 < (powerOfTwo x.exponent).2 := by
  have positive : (0 : ℚ) < (powerOfTwo x.exponent).2 :=
    Nat.cast_pos.mpr (powerOfTwo_pos x.exponent).2
  rw [magnitude, zpow_eq_powerOfTwo, ← mul_div_assoc, div_lt_one positive]
  exact_mod_cast Iff.rfl

theorem inUnitInterval_iff (x : Binary64) :
    x.inUnitInterval = true ↔ 0 ≤ x.value ∧ x.value < 1 := by
  have nonneg := x.magnitude_nonneg
  simp only [inUnitInterval, Bool.or_eq_true, Bool.and_eq_true, decide_eq_true_eq,
    Bool.not_eq_true', ← magnitude_eq_zero_iff, ← magnitude_lt_one_iff, value]
  cases x.negative with
  | false =>
    simp only [true_and, Bool.false_eq_true, ↓reduceIte, nonneg]
    exact ⟨fun h => h.elim (fun zero => by simp [zero]) id, .inr⟩
  | true =>
    simp only [Bool.true_eq_false, false_and, or_false, ↓reduceIte]
    constructor
    · intro zero
      simp [zero]
    · rintro ⟨nonpos, _⟩
      exact le_antisymm (neg_nonneg.mp nonpos) nonneg

/-- From the first magnitude of a binade on, values are at least the power of two it begins with. -/
theorem le_magnitude_of_rank {x : Binary64} {k : Nat} (rank : (1023 + k) * 2 ^ 52 ≤ x.rank.val) :
    (2 : ℚ) ^ k ≤ x.magnitude := by
  have binade : 1023 + k ≤ x.binade := (Nat.le_div_iff_mul_le (by decide)).mpr rank
  have significand : 2 ^ 52 ≤ x.significand := by
    unfold Binary64.significand
    split <;> omega
  have exponent : (k : Int) - 52 ≤ x.exponent := by
    unfold Binary64.exponent
    omega
  calc (2 : ℚ) ^ k = 2 ^ 52 * 2 ^ ((k : Int) - 52) := by
        rw [zpow_sub₀ two_ne_zero]
        field_simp
        norm_cast
    _ ≤ 2 ^ 52 * 2 ^ x.exponent := by
        gcongr
        norm_num
    _ ≤ x.significand * 2 ^ x.exponent := by
        gcongr
        exact_mod_cast significand

/-- Rounding to an integer keeps to the bounds that are integers. -/
theorem roundHalfEven_bounds {num den low high : Nat} (positive : 0 < den)
    (lower : low * den ≤ num) (upper : num < high * den) :
    low ≤ roundHalfEven num den ∧ roundHalfEven num den ≤ high := by
  have least : low ≤ num / den := (Nat.le_div_iff_mul_le positive).mpr lower
  have most : num / den < high := (Nat.div_lt_iff_lt_mul positive).mpr upper
  unfold roundHalfEven
  dsimp only
  split
  · omega
  · split <;> omega

theorem lastPlace_word {n : Nat} (nonzero : n ≠ 0) : lastPlace n 1 = (n.log2 : Int) - 52 := by
  have carry := (scaled_bounds (b := 53) (e := n.log2 - 53) nonzero (by omega)).1
  have one : Nat.log2 1 = 0 := rfl
  rw [← Nat.one_shiftLeft] at carry
  simp only [lastPlace, one, Nat.cast_zero, sub_zero, one_mul, if_neg (Nat.not_lt.mpr carry)]
  omega

/-- Rounding a word other than zero keeps its sign and does not take it below the power of two
under it. -/
theorem ofWord_rank (negative : Bool) {word : UInt64} (nonzero : word.toNat ≠ 0) :
    (ofWord negative word).negative = negative ∧
      (1023 + word.toNat.log2) * 2 ^ 52 ≤ (ofWord negative word).rank.val := by
  have small : word.toNat.log2 < 64 := (Nat.log2_lt nonzero).mpr word.toNat_lt
  have up := (powerOfTwo_pos ((word.toNat.log2 : Int) - 52)).1
  obtain ⟨lower, upper⟩ :=
    scaled_bounds (b := 52) (e := word.toNat.log2 - 52) nonzero (by omega)
  obtain ⟨least, most⟩ := roundHalfEven_bounds up lower upper
  have rank : ((word.toNat.log2 : Int) - 52 + 1074).toNat = word.toNat.log2 + 1022 := by omega
  simp only [ofWord, nearest?, if_neg nonzero, lastPlace_word nonzero, one_mul, rank]
  rw [ofRank?, dif_pos (by omega)]
  refine ⟨rfl, ?_⟩
  simp only [Option.getD_some]
  omega

theorem magnitude_ofWord (negative : Bool) {word : UInt64} (nonzero : word.toNat ≠ 0) :
    (2 : ℚ) ^ word.toNat.log2 ≤ (ofWord negative word).magnitude :=
  le_magnitude_of_rank (ofWord_rank negative nonzero).2

theorem ofWord_zero (negative : Bool) {word : UInt64} (zero : word.toNat = 0) :
    (ofWord negative word).magnitude = 0 := by
  simp [ofWord, nearest?, zero, Binary64.zero, magnitude, significand, binade]

/-- A rounded word lies in the unit interval only if it is zero. -/
theorem inUnitInterval_ofWord (negative : Bool) (word : UInt64) :
    (ofWord negative word).inUnitInterval = true ↔ word.toNat = 0 := by
  rw [inUnitInterval_iff, value]
  by_cases zero : word.toNat = 0
  · simp [zero, ofWord_zero negative zero]
  · have one : (1 : ℚ) ≤ (ofWord negative word).magnitude :=
      (one_le_pow₀ one_le_two).trans (magnitude_ofWord negative zero)
    simp only [zero, iff_false, not_and, not_lt, (ofWord_rank negative zero).1]
    cases negative with
    | false => exact fun _ => one
    | true => exact fun nonneg => absurd (neg_nonneg.mp nonneg) (by linarith)

end Binary64

namespace Json.Number

def value : Number → ℚ
  | .unsigned n => n.toNat
  | .signed n => n.toInt
  | .float x => x.value

/-- The rounded view of a number lies in the unit interval exactly if the number does. -/
theorem inUnitInterval_toBinary64 (x : Number) :
    x.toBinary64.inUnitInterval = true ↔ 0 ≤ x.value ∧ x.value < 1 := by
  cases x with
  | float x => exact x.inUnitInterval_iff
  | unsigned n =>
    rw [toBinary64, Binary64.inUnitInterval_ofWord, value]
    have nonneg : (0 : ℚ) ≤ n.toNat := Nat.cast_nonneg _
    rw [and_iff_right nonneg, Nat.cast_lt_one]
  | signed n =>
    rw [toBinary64, Binary64.inUnitInterval_ofWord, value]
    have small : n.toInt.natAbs < 2 ^ 64 := by
      have := n.le_toInt
      have := n.toInt_lt
      omega
    rw [UInt64.toNat_ofNat_of_lt' small]
    norm_cast
    omega

end Json.Number

end LayerGraph
