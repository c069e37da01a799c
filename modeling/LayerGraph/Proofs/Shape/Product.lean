import LayerGraph.Proofs.Number.Checked
import LayerGraph.Shape
import Mathlib.Algebra.BigOperators.Group.List.Lemmas
import Mathlib.Algebra.BigOperators.Ring.List
import Mathlib.Algebra.Order.Ring.Nat
import Mathlib.Data.List.TakeWhile

/-!
# Products of dimensions

Flattening multiplies dimension by dimension and stops at the first partial product that is no
word. A dimension of zero makes all later products zero, so what has to be a word is the product of
the dimensions in front of the first zero. Without a zero this is the product of all of them. With
one it can be larger, and then a layer fails whose output has the dimension zero.
-/

namespace LayerGraph

namespace Shape

/-- The product of some dimensions, whatever its size. -/
def volume (dimensions : List UInt64) : Nat :=
  (dimensions.map UInt64.toNat).prod

/-- The dimensions in front of the first zero. -/
def leading (dimensions : List UInt64) : List UInt64 :=
  dimensions.takeWhile (· ≠ 0)

@[simp] theorem volume_nil : volume [] = 1 :=
  rfl

@[simp] theorem volume_cons (d : UInt64) (rest : List UInt64) :
    volume (d :: rest) = d.toNat * volume rest := by
  simp [volume]

theorem volume_append (front back : List UInt64) :
    volume (front ++ back) = volume front * volume back := by
  simp [volume]

@[simp] theorem leading_nil : leading [] = [] :=
  rfl

@[simp] theorem leading_cons_zero (rest : List UInt64) : leading (0 :: rest) = [] := by
  simp [leading]

theorem leading_cons_of_ne {d : UInt64} (positive : d ≠ 0) (rest : List UInt64) :
    leading (d :: rest) = d :: leading rest := by
  simp [leading, positive]

theorem volume_eq_zero_iff {dimensions : List UInt64} : volume dimensions = 0 ↔ 0 ∈ dimensions := by
  simp only [volume, List.prod_eq_zero_iff, List.mem_map]
  constructor
  · rintro ⟨d, member, zero⟩
    obtain rfl : d = 0 := UInt64.toNat_inj.mp zero
    exact member
  · intro member
    exact ⟨0, member, rfl⟩

theorem zero_notMem_leading (dimensions : List UInt64) : 0 ∉ leading dimensions := by
  intro member
  simpa using List.mem_takeWhile_imp member

theorem volume_leading_pos (dimensions : List UInt64) : 0 < volume (leading dimensions) := by
  rw [Nat.pos_iff_ne_zero, Ne, volume_eq_zero_iff]
  exact zero_notMem_leading dimensions

theorem leading_eq_self {dimensions : List UInt64} (solid : 0 ∉ dimensions) :
    leading dimensions = dimensions := by
  rw [leading, List.takeWhile_eq_self_iff]
  intro d member
  exact decide_eq_true fun zero => solid (zero ▸ member)

/-- Partial products are words up to the end if they are up to the first zero. -/
theorem foldlM_times?_eq_some_iff {dimensions : List UInt64} {start product : UInt64} :
    dimensions.foldlM Word.times? start = some product ↔
      start.toNat * volume (leading dimensions) < UInt64.size ∧
        product.toNat = start.toNat * volume dimensions := by
  induction dimensions generalizing start with
  | nil =>
    have bound := start.toNat_lt_size
    simp [← UInt64.toNat_inj, bound, eq_comm]
  | cons d rest ih =>
    -- The first product is a word, and from there it goes on.
    have next : (d :: rest).foldlM Word.times? start = some product ↔
        start.toNat * d.toNat < UInt64.size ∧
          start.toNat * d.toNat * volume (leading rest) < UInt64.size ∧
          product.toNat = start.toNat * d.toNat * volume rest := by
      simp only [List.foldlM_cons, Option.bind_eq_bind, Option.bind_eq_some_iff,
        Word.times?_eq_some_iff, ih]
      exact Word.exists_toNat_and_iff
        (P := fun n => n * volume (leading rest) < UInt64.size ∧ product.toNat = n * volume rest)
    rw [next, volume_cons, ← Nat.mul_assoc]
    by_cases zero : d = 0
    · subst zero
      have bound := start.toNat_lt_size
      simp [bound]
    · rw [leading_cons_of_ne zero, volume_cons, ← Nat.mul_assoc, and_iff_right_of_imp]
      rintro ⟨bound, _⟩
      exact (Nat.le_mul_of_pos_right _ (volume_leading_pos rest)).trans_lt bound

theorem volume_lt_of_leading {dimensions : List UInt64}
    (fits : volume (leading dimensions) < UInt64.size) : volume dimensions < UInt64.size := by
  by_cases zero : 0 ∈ dimensions
  · rw [volume_eq_zero_iff.mpr zero]
    decide
  · rwa [leading_eq_self zero] at fits

variable (batch : UInt64) (dimensions : List UInt64) (params : Params)

/-- A flattened shape, or a product in front of the first zero that is no word. -/
theorem flatten_cases :
    (volume (leading dimensions) < UInt64.size ∧
      ∃ product : UInt64, product.toNat = volume dimensions ∧
        Kind.flatten.outputShape [batch :: dimensions] params = .ok [batch, product]) ∨
    (UInt64.size ≤ volume (leading dimensions) ∧
      Kind.flatten.outputShape [batch :: dimensions] params = .error .overflow) := by
  have unfolded : Kind.flatten.outputShape [batch :: dimensions] params =
      flatten (batch :: dimensions) := rfl
  have words {product : UInt64} :
      dimensions.foldlM Word.times? 1 = some product ↔
        volume (leading dimensions) < UInt64.size ∧ product.toNat = volume dimensions := by
    simp [foldlM_times?_eq_some_iff]
  rcases Nat.lt_or_ge (volume (leading dimensions)) UInt64.size with fits | large
  · have same := UInt64.toNat_ofNat_of_lt' (volume_lt_of_leading fits)
    refine .inl ⟨fits, _, same, ?_⟩
    rw [unfolded, flatten, words.mpr ⟨fits, same⟩]
  · have stopped : dimensions.foldlM Word.times? 1 = none := by
      rw [Option.eq_none_iff_forall_ne_some]
      intro product found
      exact absurd (words.mp found).1 (Nat.not_lt.mpr large)
    refine .inr ⟨large, ?_⟩
    rw [unfolded, flatten, stopped]

theorem flatten_eq_overflow_iff :
    Kind.flatten.outputShape [batch :: dimensions] params = .error .overflow ↔
      UInt64.size ≤ volume (leading dimensions) := by
  rcases flatten_cases batch dimensions params with ⟨fits, product, _, found⟩ | ⟨large, failed⟩
  · rw [found]
    exact iff_of_false nofun (Nat.not_le.mpr fits)
  · exact iff_of_true failed large

/-- Flattening yields the product where that is a word, and fails where it is too large. -/
def Multiplies : Prop :=
  (volume dimensions < UInt64.size →
    ∃ product : UInt64, product.toNat = volume dimensions ∧
      Kind.flatten.outputShape [batch :: dimensions] params = .ok [batch, product]) ∧
  (Kind.flatten.outputShape [batch :: dimensions] params = .error .overflow ↔
    UInt64.size ≤ volume dimensions)

theorem multiplies_iff :
    Multiplies batch dimensions params ↔
      (0 ∈ dimensions → volume (leading dimensions) < UInt64.size) := by
  rcases flatten_cases batch dimensions params with ⟨fits, found⟩ | ⟨large, failed⟩
  · have bound := Nat.not_le.mpr (volume_lt_of_leading fits)
    refine iff_of_true ⟨fun _ => found, iff_of_false ?_ bound⟩ fun _ => fits
    obtain ⟨product, _, result⟩ := found
    rw [result]
    nofun
  · constructor
    · rintro ⟨yields, _⟩ zero
      have bound : volume dimensions < UInt64.size := by
        rw [volume_eq_zero_iff.mpr zero]
        decide
      obtain ⟨product, _, result⟩ := yields bound
      rw [failed] at result
      contradiction
    · intro fits
      have solid : 0 ∉ dimensions := fun zero => Nat.not_lt.mpr large (fits zero)
      rw [leading_eq_self solid] at large
      exact ⟨fun bound => absurd bound (Nat.not_lt.mpr large), iff_of_true failed large⟩

theorem flatten_congr {others : List UInt64} (same : volume dimensions = volume others)
    (leads : volume (leading dimensions) < UInt64.size ↔ volume (leading others) < UInt64.size) :
    Kind.flatten.outputShape [batch :: dimensions] params =
      Kind.flatten.outputShape [batch :: others] params := by
  rcases flatten_cases batch dimensions params with ⟨fits, product, value, found⟩ | ⟨large, failed⟩
  · rcases flatten_cases batch others params with ⟨_, product', value', found'⟩ | ⟨large, _⟩
    · have equal : product = product' := UInt64.toNat_inj.mp (by rw [value, value', same])
      rw [found, found', equal]
    · exact absurd (leads.mp fits) (Nat.not_lt.mpr large)
  · rcases flatten_cases batch others params with ⟨fits, _⟩ | ⟨_, failed'⟩
    · exact absurd (leads.mpr fits) (Nat.not_lt.mpr large)
    · rw [failed, failed']

theorem volume_perm {dimensions others : List UInt64} (perm : dimensions.Perm others) :
    volume dimensions = volume others :=
  (perm.map _).prod_eq

theorem leading_append {front : List UInt64} (solid : 0 ∉ front) (back : List UInt64) :
    leading (front ++ back) = front ++ leading back := by
  refine List.takeWhile_append_of_pos fun d member => ?_
  exact decide_eq_true fun zero => solid (zero ▸ member)

/-- In whatever order dimensions stand, those in front of the first zero are some of those that are
not zero. -/
theorem volume_leading_le (dimensions : List UInt64) :
    volume (leading dimensions) ≤ volume (dimensions.filter (· ≠ 0)) := by
  have kept : (leading dimensions).filter (· ≠ 0) = leading dimensions := by
    rw [List.filter_eq_self]
    intro d member
    exact decide_eq_true fun zero => zero_notMem_leading dimensions (zero ▸ member)
  have part : (leading dimensions).Sublist (dimensions.filter (· ≠ 0)) := by
    rw [← kept]
    exact (List.takeWhile_sublist _).filter _
  have solid : 0 ∉ dimensions.filter (· ≠ 0) := by simp
  refine Nat.le_of_dvd ?_ (part.map _).prod_dvd_prod
  rw [Nat.pos_iff_ne_zero]
  exact mt volume_eq_zero_iff.mp solid

/-- The order of the dimensions plays no part, unless one is zero and the product of the others is
no word. -/
theorem flatten_perm_iff :
    (∀ others, dimensions.Perm others →
      Kind.flatten.outputShape [batch :: dimensions] params =
        Kind.flatten.outputShape [batch :: others] params) ↔
      (0 ∈ dimensions → volume (dimensions.filter (· ≠ 0)) < UInt64.size) := by
  constructor
  · intro same zero
    -- With a zero in front there is no overflow, so there is none with all zeros at the back.
    have early := same _ (List.perm_cons_erase zero)
    have found : ¬ Kind.flatten.outputShape [batch :: dimensions] params = .error .overflow := by
      rw [early, flatten_eq_overflow_iff, leading_cons_zero]
      decide
    have late := same _ (List.filter_append_perm (· ≠ 0) dimensions).symm
    rw [late, flatten_eq_overflow_iff, Nat.not_le, leading_append (by simp), volume_append] at found
    exact (Nat.le_mul_of_pos_right _ (volume_leading_pos _)).trans_lt found
  · intro fits others perm
    refine flatten_congr batch dimensions params (volume_perm perm) ?_
    by_cases zero : 0 ∈ dimensions
    · have bound := fits zero
      have bound' := volume_perm (perm.filter (· ≠ 0)) ▸ bound
      exact iff_of_true ((volume_leading_le _).trans_lt bound)
        ((volume_leading_le _).trans_lt bound')
    · have zero' := mt perm.mem_iff.mpr zero
      rw [leading_eq_self zero, leading_eq_self zero', volume_perm perm]

/-- A flattened shape has the product of the dimensions behind the batch, if the product of those in
front of the first zero is a word, and otherwise there is an overflow. So flattening multiplies
unless a zero comes too late. The order of the dimensions plays no part, unless one is zero and the
product of the others is no word. -/
theorem flatten_outcome :
    ((volume (leading dimensions) < UInt64.size ∧
        ∃ product : UInt64, product.toNat = volume dimensions ∧
          Kind.flatten.outputShape [batch :: dimensions] params = .ok [batch, product]) ∨
      (UInt64.size ≤ volume (leading dimensions) ∧
        Kind.flatten.outputShape [batch :: dimensions] params = .error .overflow)) ∧
    (Multiplies batch dimensions params ↔
      (0 ∈ dimensions → volume (leading dimensions) < UInt64.size)) ∧
    ((∀ others, dimensions.Perm others →
        Kind.flatten.outputShape [batch :: dimensions] params =
          Kind.flatten.outputShape [batch :: others] params) ↔
      (0 ∈ dimensions → volume (dimensions.filter (· ≠ 0)) < UInt64.size)) :=
  ⟨flatten_cases batch dimensions params, multiplies_iff batch dimensions params,
    flatten_perm_iff batch dimensions params⟩

/-- A zero behind two dimensions whose product is no word: the product of all three is zero. -/
def lateZero : List UInt64 :=
  [4294967296, 4294967296, 0]

/-- Flattening does not always multiply, and the order of the dimensions does play a part. -/
theorem not_multiplies :
    (¬ ∀ batch dimensions params, Multiplies batch dimensions params) ∧
    ¬ ∀ batch dimensions others params, dimensions.Perm others →
      Kind.flatten.outputShape [batch :: dimensions] params =
        Kind.flatten.outputShape [batch :: others] params := by
  have failed : Kind.flatten.outputShape [1 :: lateZero] .empty = .error .overflow := rfl
  constructor
  · intro multiplies
    have large := (multiplies 1 lateZero .empty).2.mp failed
    exact absurd large (by decide)
  · intro same
    have early := same 1 lateZero lateZero.reverse .empty (List.reverse_perm _).symm
    rw [failed] at early
    contradiction

end Shape

end LayerGraph
