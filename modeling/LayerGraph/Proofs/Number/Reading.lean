import LayerGraph.Proofs.NodeRules
import LayerGraph.Proofs.Number.Checked
import Mathlib.Data.Rat.Floor

/-!
# Integers read from numbers

An integer is read from a parameter only if it is the exact value of the number there. The view as a
binary64 number, through which large words are rounded, is bounded so that no rounded word
passes, and the cast from it loses nothing.
-/

namespace LayerGraph

def truncate (q : ℚ) : ℤ :=
  if 0 ≤ q then ⌊q⌋ else ⌈q⌉

theorem truncate_intCast (n : ℤ) : truncate n = n := by
  simp [truncate]

/-- Bounds on an integer may be checked before or after it is taken for a rational number. -/
theorem abs_intCast_le_iff {n : ℤ} : |(n : ℚ)| ≤ 2 ^ 53 ↔ n.natAbs ≤ 2 ^ 53 := by
  rw [← Int.cast_abs, ← Nat.cast_natAbs]
  norm_cast

theorem truncate_eq_self_iff {q : ℚ} : (truncate q : ℚ) = q ↔ ∃ n : ℤ, q = n := by
  constructor
  · exact fun same => ⟨truncate q, same.symm⟩
  · rintro ⟨n, rfl⟩
    rw [truncate_intCast]

namespace Word

def saturated (n : ℤ) : Int64 :=
  Int64.ofInt (max (-2 ^ 63) (min n (2 ^ 63 - 1)))

theorem toInt_saturated {n : ℤ} (low : -2 ^ 63 ≤ n) (high : n < 2 ^ 63) :
    (saturated n).toInt = n := by
  have inside : max (-2 ^ 63) (min n (2 ^ 63 - 1)) = n := by omega
  rw [saturated, inside]
  exact Int64.toInt_ofInt_of_le low high

end Word

namespace Binary64

def cast (x : Binary64) : Int64 :=
  Word.saturated (truncate x.value)

/-- Nothing behind the point, and no more than `2 ^ 53` before it. -/
def Whole (x : Binary64) : Prop :=
  x.value - truncate x.value = 0 ∧ |x.value| ≤ 2 ^ 53

instance (x : Binary64) : Decidable x.Whole :=
  inferInstanceAs (Decidable (_ ∧ _))

def whole? (x : Binary64) : Option Int64 :=
  if x.Whole then some x.cast else none

variable {x : Binary64}

/-- A whole number of `2 ^ 53` at most is a word, so the cast neither truncates nor saturates. -/
theorem Whole.toInt_cast (whole : x.Whole) : (x.cast.toInt : ℚ) = x.value := by
  have integral : (truncate x.value : ℚ) = x.value := (sub_eq_zero.mp whole.1).symm
  have bound : (truncate x.value).natAbs ≤ 2 ^ 53 := by
    rw [← abs_intCast_le_iff, integral]
    exact whole.2
  rw [cast, Word.toInt_saturated (by omega) (by omega), integral]

theorem whole_iff : x.Whole ↔ (∃ n : ℤ, x.value = n) ∧ |x.value| ≤ 2 ^ 53 := by
  rw [Whole, sub_eq_zero, eq_comm, truncate_eq_self_iff]

theorem whole?_eq_some_iff {word : Int64} :
    x.whole? = some word ↔ x.value = word.toInt ∧ |x.value| ≤ 2 ^ 53 := by
  unfold whole?
  split
  · rename_i whole
    have exact_ := whole.toInt_cast
    rw [Option.some_inj, and_iff_left whole.2, ← exact_, Int.cast_inj, Int64.toInt_inj]
  · rename_i other
    exact iff_of_false nofun fun ⟨same, bound⟩ => other (whole_iff.mpr ⟨⟨_, same⟩, bound⟩)

/-- The magnitude is a natural number exactly if no place of the significand lies behind the
point. -/
theorem magnitude_eq_natCast_iff {n : ℕ} : x.magnitude = n ↔
    x.significand % (powerOfTwo x.exponent).2 = 0 ∧
      x.significand / (powerOfTwo x.exponent).2 * (powerOfTwo x.exponent).1 = n := by
  have scaled : x.magnitude = n ↔
      x.significand * (powerOfTwo x.exponent).1 = n * (powerOfTwo x.exponent).2 := by
    have positive : ((powerOfTwo x.exponent).2 : ℚ) ≠ 0 :=
      Nat.cast_ne_zero.mpr (powerOfTwo_pos x.exponent).2.ne'
    rw [magnitude, zpow_eq_powerOfTwo, ← mul_div_assoc, div_eq_iff positive]
    exact_mod_cast Iff.rfl
  rw [scaled, powerOfTwo_eq]
  rcases le_total 0 x.exponent with nonneg | nonpos
  · have down : (-x.exponent).toNat = 0 := by omega
    simp [down, Nat.mod_one]
  · have up : x.exponent.toNat = 0 := by omega
    have positive : 0 < 2 ^ (-x.exponent).toNat := by positivity
    simp only [up, pow_zero, mul_one]
    constructor
    · intro same
      rw [same]
      exact ⟨Nat.mul_mod_left .., Nat.mul_div_cancel _ positive⟩
    · rintro ⟨none, rfl⟩
      exact (Nat.div_mul_cancel (Nat.dvd_of_mod_eq_zero none)).symm

theorem abs_value (x : Binary64) : |x.value| = x.magnitude := by
  unfold value
  split
  · rw [abs_neg, abs_of_nonneg x.magnitude_nonneg]
  · rw [abs_of_nonneg x.magnitude_nonneg]

theorem toInt?_eq_some_iff {n : ℤ} : x.toInt? = some n ↔ x.value = n := by
  have unfolded : x.toInt? =
      if x.significand % (powerOfTwo x.exponent).2 = 0 then
        let magnitude : ℤ :=
          (x.significand / (powerOfTwo x.exponent).2 * (powerOfTwo x.exponent).1 : ℕ)
        some (if x.negative then -magnitude else magnitude)
      else none := rfl
  rw [unfolded]
  constructor
  · intro found
    split at found
    · rename_i whole
      obtain rfl := Option.some_inj.mp found
      rw [value, magnitude_eq_natCast_iff.mpr ⟨whole, rfl⟩]
      split <;> push_cast <;> rfl
    · contradiction
  · intro same
    have magnitude : x.magnitude = n.natAbs := by
      rw [← abs_value, same, Nat.cast_natAbs, Int.cast_abs]
    obtain ⟨whole, digits⟩ := magnitude_eq_natCast_iff.mp magnitude
    rw [value, magnitude, Nat.cast_natAbs] at same
    simp only [if_pos whole, digits, Option.some_inj]
    cases sign : x.negative with
    | false =>
      simp only [sign, Bool.false_eq_true, ↓reduceIte] at same ⊢
      exact_mod_cast same
    | true =>
      simp only [sign, ↓reduceIte] at same ⊢
      exact_mod_cast same

/-- The bounded view as an integer is the cast of a whole number. -/
theorem filter_toInt?_eq_whole? (x : Binary64) :
    (x.toInt?.filter fun n => n.natAbs ≤ 1 <<< 53).map Int64.ofInt = x.whole? := by
  ext word
  simp only [Option.map_eq_some_iff, Option.filter_eq_some_iff, toInt?_eq_some_iff,
    decide_eq_true_eq, Nat.one_shiftLeft, whole?_eq_some_iff]
  constructor
  · rintro ⟨n, ⟨same, bound⟩, rfl⟩
    rw [Int64.toInt_ofInt_of_le (by omega) (by omega), same]
    exact ⟨rfl, abs_intCast_le_iff.mpr bound⟩
  · rintro ⟨same, bound⟩
    rw [same] at bound
    exact ⟨word.toInt, ⟨same, abs_intCast_le_iff.mp bound⟩, Int64.ofInt_toInt word⟩

/-- Rounded to binary64, a word that is too large for a signed one stays that large. -/
theorem le_value_ofWord {word : UInt64} (large : 2 ^ 63 ≤ word.toNat) :
    2 ^ 63 ≤ (ofWord false word).value := by
  have nonzero : word.toNat ≠ 0 := by omega
  have digits : 63 ≤ word.toNat.log2 := (Nat.le_log2 nonzero).mpr large
  rw [value, (ofWord_rank false nonzero).1]
  calc (2 : ℚ) ^ 63 ≤ 2 ^ word.toNat.log2 := pow_le_pow_right₀ one_le_two digits
    _ ≤ (ofWord false word).magnitude := magnitude_ofWord false nonzero

theorem whole?_ofWord {word : UInt64} (large : 2 ^ 63 ≤ word.toNat) :
    (ofWord false word).whole? = none := by
  have high := le_value_ofWord large
  refine if_neg fun whole => ?_
  have bound := (le_abs_self _).trans whole.2
  linarith

end Binary64

namespace Json.Number

/-- The numbers that an integer is read from: those of an integer class that are words with sign,
and binary64 numbers that are integers of a magnitude that leaves no gaps. -/
def Readable : Number → Prop
  | .unsigned n => n.toNat ≤ 2 ^ 63 - 1
  | .signed n => n.toInt ≤ 2 ^ 63 - 1
  | .float x => (∃ n : ℤ, x.value = n) ∧ |x.value| ≤ 2 ^ 53

/-- The integer class comes first, and the cast of the binary64 view second. -/
theorem integer?_eq (x : Number) : x.integer? = x.toInt64?.or x.toBinary64.whole? := by
  rw [integer?, Binary64.filter_toInt?_eq_whole?]

theorem toInt64?_unsigned (word : UInt64) : toInt64? (.unsigned word) =
    if word.toNat < 2 ^ 63 then some word.toInt64 else none := by
  rw [toInt64?, Nat.one_shiftLeft]

theorem integer?_eq_some_iff {x : Number} {n : Int64} :
    x.integer? = some n ↔ x.Readable ∧ x.value = n.toInt := by
  rw [integer?_eq]
  cases x with
  | unsigned word =>
    by_cases small : word.toNat < 2 ^ 63
    · have readable : (unsigned word).Readable := Nat.le_sub_one_of_lt small
      have same := Word.toInt_toInt64 small
      rw [toInt64?_unsigned, if_pos small, Option.some_or, Option.some_inj,
        and_iff_right readable, value, ← Int64.toInt_inj, same]
      exact_mod_cast Iff.rfl
    · have unreadable : ¬ (unsigned word).Readable := by
        simp only [Readable]
        omega
      rw [toInt64?_unsigned, if_neg small, Option.none_or, toBinary64,
        Binary64.whole?_ofWord (Nat.le_of_not_lt small),
        iff_false_left (Option.some_ne_none n).symm]
      exact fun read => unreadable read.1
  | signed word =>
    have readable : (signed word).Readable := Int.le_sub_one_of_lt word.toInt_lt
    rw [toInt64?, Option.some_or, Option.some_inj, and_iff_right readable, value, Int.cast_inj,
      Int64.toInt_inj]
  | float x =>
    rw [toInt64?, Option.none_or, toBinary64, Binary64.whole?_eq_some_iff, Readable, value]
    constructor
    · rintro ⟨same, small⟩
      exact ⟨⟨⟨_, same⟩, small⟩, same⟩
    · rintro ⟨⟨_, small⟩, same⟩
      exact ⟨same, small⟩

/-- What is read stands for a word with sign. -/
theorem Readable.exists_value {x : Number} (readable : x.Readable) :
    ∃ n : Int64, x.value = n.toInt := by
  cases x with
  | unsigned word =>
    have small : word.toNat ≤ 2 ^ 63 - 1 := readable
    obtain ⟨n, same⟩ := Word.exists_toInt (n := word.toNat) (by omega) (by omega)
    exact ⟨n, by rw [same]; rfl⟩
  | signed word => exact ⟨word, rfl⟩
  | float x =>
    exact ⟨x.cast, (Binary64.whole_iff.mpr readable).toInt_cast.symm⟩

theorem isSome_integer?_iff {x : Number} : x.integer?.isSome = true ↔ x.Readable := by
  rw [Option.isSome_iff_exists]
  simp only [integer?_eq_some_iff, exists_and_left, and_iff_left_iff_imp]
  exact Readable.exists_value

end Json.Number

namespace Params

/-- The parameter is listed with this value, be it null. -/
def Holds (params : Params) (name : String) (x : Json.Value) : Prop :=
  Table.get? name params.members = some x

open Json (Number)

variable {params : Params} {name : String}

theorem integer?_of_holds {x : Number} (holds : params.Holds name (.number x)) :
    params.integer? name = x.integer? := by
  have found : params.get? name = some (.number x) := get?_eq_some_iff.mpr ⟨holds, nofun⟩
  rw [integer?, number?, found]
  rfl

theorem integer?_of_not_holds (other : ∀ x, ¬ params.Holds name (.number x)) :
    params.integer? name = none := by
  refine Option.eq_none_iff_forall_ne_some.mpr fun n read => ?_
  obtain ⟨x, found, _⟩ := integer?_eq_some_iff.mp read
  exact other x (get?_eq_some_iff.mp found).1

/-- The integer read from a parameter is the exact value of the number that it holds, and one is
read exactly from the numbers that are words with sign, binary64 numbers of at most `2 ^ 53` only.
The binary64 view is tried where the integer class gives none; it takes no rounded word, and
the cast loses nothing of what it takes. Where there is no number, nothing is read. -/
theorem integer?_exact (params : Params) (name : String) :
    (∀ x, params.Holds name (.number x) →
      (∀ n, params.integer? name = some n → x.value = n.toInt) ∧
      ((params.integer? name).isSome = true ↔ x.Readable) ∧
      params.integer? name = x.toInt64?.or x.toBinary64.whole?) ∧
    (∀ word, params.Holds name (.number (.unsigned word)) → 2 ^ 63 ≤ word.toNat →
      Number.toInt64? (.unsigned word) = none ∧ 2 ^ 63 ≤ (Binary64.ofWord false word).value ∧
      params.integer? name = none) ∧
    (∀ x : Binary64, x.Whole → (x.cast.toInt : ℚ) = x.value) ∧
    ((∀ x, ¬ params.Holds name (.number x)) → params.integer? name = none) := by
  refine ⟨fun x holds => ?_, fun word holds large => ?_, fun x whole => whole.toInt_cast,
    integer?_of_not_holds⟩
  · rw [integer?_of_holds holds]
    exact ⟨fun n read => (Number.integer?_eq_some_iff.mp read).2, Number.isSome_integer?_iff,
      x.integer?_eq⟩
  · have none : Number.toInt64? (.unsigned word) = none := by
      rw [Number.toInt64?_unsigned, if_neg (Nat.not_lt.mpr large)]
    refine ⟨none, Binary64.le_value_ofWord large, ?_⟩
    rw [integer?_of_holds holds, Number.integer?_eq, none, Option.none_or]
    exact Binary64.whole?_ofWord large

/-- The last float without gaps below it, the largest word, and a text. -/
def extremes : Params :=
  ⟨[("label", .string "3"), ("largest", .number (.unsigned 18446744073709551615)),
    ("last", .number (.float ⟨false, 1076 <<< 52, by decide⟩))]⟩

theorem integer?_exact_extremes :
    let last : Binary64 := ⟨false, 1076 <<< 52, by decide⟩
    (extremes.Holds "last" (.number (.float last)) ∧
      extremes.integer? "last" = some 9007199254740992 ∧
      last.value = (9007199254740992 : Int64).toInt) ∧
    (extremes.Holds "largest" (.number (.unsigned 18446744073709551615)) ∧
      extremes.integer? "largest" = none) ∧
    (last.Whole ∧ (last.cast.toInt : ℚ) = last.value) ∧
    ((∀ x, ¬ extremes.Holds "label" (.number x)) ∧ extremes.integer? "label" = none) := by
  intro last
  obtain ⟨ofNumber, _, exactCast, _⟩ := integer?_exact extremes "last"
  have read : extremes.integer? "last" = some 9007199254740992 := by decide
  obtain ⟨exactValue, readable, _⟩ := ofNumber (.float last) rfl
  have whole : last.Whole := Binary64.whole_iff.mpr (readable.mp (by rw [read]; rfl))
  have text : ∀ x, ¬ extremes.Holds "label" (.number x) := nofun
  refine ⟨⟨rfl, read, exactValue _ read⟩, ⟨rfl, ?_⟩, ⟨whole, exactCast last whole⟩, text, ?_⟩
  · exact ((integer?_exact extremes "largest").2.1 _ rfl (by decide)).2.2
  · exact (integer?_exact extremes "label").2.2.2 text

end Params

end LayerGraph
