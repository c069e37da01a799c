import LayerGraph.Proofs.Except
import LayerGraph.Proofs.NodeRules
import LayerGraph.Proofs.Number.Checked
import LayerGraph.Shape
import Mathlib.Data.Set.Card

/-!
# Windows of a convolution

A convolution counts, along each axis, the multiples of the stride from which its window still fits
into the padded axis. The sums that lead there are checked. The conversion of the window, the
division by the stride and the final increment are not; `Exact.conv2d` stops where one of them is
not exact, and it never stops.
-/

namespace LayerGraph

namespace Params

def Reads (params : Params) (name : String) (n : ℕ) : Prop :=
  ∃ word, params.integer? name = some word ∧ word.toInt = n

def ReadsOr (params : Params) (name : String) (default n : ℕ) : Prop :=
  ¬ params.Sets name ∧ n = default ∨ params.Reads name n

variable {params : Params} {name : String} {default m n : ℕ}

theorem Reads.unique (reads : params.Reads name m) (reads' : params.Reads name n) : m = n := by
  obtain ⟨word, found, value⟩ := reads
  obtain ⟨word', found', value'⟩ := reads'
  obtain rfl : word = word' := Option.some_inj.mp (found.symm.trans found')
  omega

theorem Reads.sets (reads : params.Reads name n) : params.Sets name := by
  obtain ⟨_, read, _⟩ := reads
  obtain ⟨_, number, _⟩ := integer?_eq_some_iff.mp read
  obtain ⟨found, other⟩ := get?_eq_some_iff.mp number
  exact ⟨_, found, other⟩

theorem ReadsOr.unique (reads : params.ReadsOr name default m)
    (reads' : params.ReadsOr name default n) : m = n := by
  rcases reads with ⟨unset, rfl⟩ | reads
  · rcases reads' with ⟨_, rfl⟩ | reads'
    · rfl
    · exact absurd reads'.sets unset
  · rcases reads' with ⟨unset, _⟩ | reads'
    · exact absurd reads.sets unset
    · exact reads.unique reads'

/-- Only a default can be too large for a word. -/
theorem ReadsOr.exists_toInt (reads : params.ReadsOr name default n) (small : default < 2 ^ 63) :
    ∃ word : Int64, word.toInt = n := by
  rcases reads with ⟨_, rfl⟩ | ⟨word, _, value⟩
  · exact Word.exists_toInt (by omega) (by omega)
  · exact ⟨word, value⟩

end Params

namespace Shape

/-- What is left of a padded axis behind the first window. -/
def span? (size : UInt64) (kernel padding : Int64) : Option Int64 := do
  let size ← Word.toSigned? size
  let margin ← Word.mul? padding 2
  let padded ← Word.add? size margin
  Word.sub? padded kernel

theorem windowCount_eq (axis : String) (size : UInt64) (kernel stride padding : Int64) :
    windowCount axis size kernel stride padding =
      match span? size kernel padding with
      | none => .error .overflow
      | some span =>
        if Word.floorDiv span stride + 1 ≤ 0 then
          .error (.nonPositiveDimension axis (Word.floorDiv span stride + 1))
        else .ok (Word.floorDiv span stride + 1).toUInt64 :=
  rfl

theorem span?_eq_some_iff {size : UInt64} {kernel padding span : Int64}
    (pads : 0 ≤ padding.toInt) :
    span? size kernel padding = some span ↔
      size.toNat + 2 * padding.toInt < 2 ^ 63 ∧
        span.toInt = size.toNat + 2 * padding.toInt - kernel.toInt := by
  have two : (2 : Int64).toInt = 2 := rfl
  simp only [span?, Option.bind_eq_bind, Option.bind_eq_some_iff, Word.toSigned?_eq_some_iff,
    Word.mul?_eq_some_iff, Word.add?_eq_some_iff, Word.sub?_eq_some_iff, two]
  constructor
  · rintro ⟨length, sized, margin, doubled, padded, sum, rest⟩
    have bound := padded.toInt_lt
    omega
  · rintro ⟨bound, rest⟩
    obtain ⟨length, sized⟩ := Word.exists_toInt (n := size.toNat) (by omega) (by omega)
    obtain ⟨margin, doubled⟩ := Word.exists_toInt (n := padding.toInt * 2) (by omega) (by omega)
    obtain ⟨padded, sum⟩ :=
      Word.exists_toInt (n := length.toInt + margin.toInt) (by omega) (by omega)
    exact ⟨length, sized, margin, doubled, padded, sum, by omega⟩

/-- The window takes at least one place, so there is room to count one more. -/
theorem toInt_floorDiv_add_one {size : UInt64} {kernel stride padding span : Int64}
    (window : 0 < kernel.toInt) (step : 0 < stride.toInt) (pads : 0 ≤ padding.toInt)
    (found : span? size kernel padding = some span) :
    (Word.floorDiv span stride + 1).toInt =
      (Word.floorDiv span stride).toInt + (1 : Int64).toInt := by
  obtain ⟨bound, value⟩ := (span?_eq_some_iff pads).mp found
  have one : (1 : Int64).toInt = 1 := rfl
  have least := (Word.floorDiv span stride).le_toInt
  have room : (Word.floorDiv span stride).toInt < 2 ^ 63 - 1 := by
    rw [Word.toInt_floorDiv step, Int.ediv_lt_iff_lt_mul step]
    omega
  exact Word.toInt_add_of_bounds (by omega) (by omega)

def boundedParam (params : Params) (name : String) (least : Int64) (error : ShapeError) :
    Except ShapeError Int64 :=
  match params.integerOrDefault? Kind.conv2d.schema name with
  | some n => if least ≤ n then .ok n else .error error
  | none => .error error

theorem conv2d_eq (batch depth height width : UInt64) (params : Params) :
    conv2d [batch, depth, height, width] params = do
      let channels ← positiveParam params "out_channels"
      let kernel ← positiveParam params "kernel_size"
      let stride ← boundedParam params "stride" 1 (.invalidParam "stride")
      let padding ← boundedParam params "padding" 0 (.negativeParam "padding")
      let height ← windowCount "height" height kernel.toInt64 stride padding
      let width ← windowCount "width" width kernel.toInt64 stride padding
      return [batch, channels, height, width] := by
  refine bind_congr fun channels => bind_congr fun kernel => ?_
  unfold boundedParam
  cases params.integerOrDefault? Kind.conv2d.schema "stride" with
  | none => rfl
  | some stride =>
    have positive : 1 ≤ stride ↔ 0 < stride := by
      rw [Int64.le_iff_toInt_le, Int64.lt_iff_toInt_lt]
      rfl
    by_cases step : 0 < stride
    · cases params.integerOrDefault? Kind.conv2d.schema "padding" with
      | none => simp [positive, step]
      | some padding => by_cases pads : 0 ≤ padding <;> simp [positive, step, pads]
    · simp [positive, step]

namespace Exact

/-- The Euclidean quotient, unless the divisor is zero or the quotient is no word. -/
def quotient? (a b : Int64) : Option Int64 :=
  if b = 0 then none else Word.signed? (a.toInt / b.toInt)

def windowCount (axis : String) (size : UInt64) (kernel stride padding : Int64) :
    ExceptT ShapeError Option UInt64 :=
  match span? size kernel padding with
  | none => throw .overflow
  | some span => do
    let quotient ← quotient? span stride
    let count ← Word.add? quotient 1
    if count ≤ 0 then throw (.nonPositiveDimension axis count) else return count.toUInt64

def conv2d (shape : Shape) (params : Params) : ExceptT ShapeError Option Shape :=
  match shape with
  | [batch, _, height, width] => do
    let channels ← positiveParam params "out_channels"
    let kernel ← positiveParam params "kernel_size"
    let kernel ← Word.toSigned? kernel
    let stride ← boundedParam params "stride" 1 (.invalidParam "stride")
    let padding ← boundedParam params "padding" 0 (.negativeParam "padding")
    let height ← windowCount "height" height kernel stride padding
    let width ← windowCount "width" width kernel stride padding
    return [batch, channels, height, width]
  | _ => throw (.rankMismatch .conv2d 4 shape)

/-- Steps in sequence do not stop if none of them does. -/
theorem run_bind {α β : Type} {x : ExceptT ShapeError Option α} {y : Except ShapeError α}
    {f : α → ExceptT ShapeError Option β} {g : α → Except ShapeError β} (first : x.run = some y)
    (next : ∀ a, y = .ok a → (f a).run = some (g a)) : (x >>= f).run = some (y >>= g) := by
  rw [ExceptT.run_bind, first]
  cases y with
  | error e => rfl
  | ok a => exact next a rfl

/-- A step that does not stop. -/
theorem some_bind {α β : Type} (a : α) (f : α → ExceptT ShapeError Option β) :
    ((liftM (some a) : ExceptT ShapeError Option α) >>= f) = f a :=
  rfl

variable {axis : String} {size : UInt64} {kernel stride padding : Int64}

theorem run_windowCount (window : 0 < kernel.toInt) (step : 0 < stride.toInt)
    (pads : 0 ≤ padding.toInt) :
    (windowCount axis size kernel stride padding).run =
      some (Shape.windowCount axis size kernel stride padding) := by
  rw [windowCount_eq]
  unfold windowCount
  cases found : span? size kernel padding with
  | none => rfl
  | some span =>
    have nonzero : stride ≠ 0 := by
      rintro rfl
      contradiction
    have quotient : quotient? span stride = some (Word.floorDiv span stride) := by
      rw [quotient?, if_neg nonzero]
      exact Word.signed?_eq_some_iff.mpr (Word.toInt_floorDiv step)
    have count : Word.add? (Word.floorDiv span stride) 1 =
        some (Word.floorDiv span stride + 1) :=
      Word.add?_eq_some_iff.mpr (toInt_floorDiv_add_one window step pads found)
    simp only [quotient, some_bind, count]
    split <;> rfl

end Exact

def windowStarts (padded kernel stride : ℕ) : Set ℕ :=
  {t | t * stride + kernel ≤ padded}

theorem encard_windowStarts {padded kernel stride : ℕ} (step : 0 < stride)
    (fits : kernel ≤ padded) :
    (windowStarts padded kernel stride).encard = ((padded - kernel) / stride + 1 : ℕ) := by
  have listed : windowStarts padded kernel stride =
      (Finset.range ((padded - kernel) / stride + 1) : Set ℕ) := by
    ext t
    rw [windowStarts, Set.mem_ofPred_eq, Finset.coe_range, Set.mem_Iio, Nat.lt_succ_iff,
      Nat.le_div_iff_mul_le step]
    omega
  rw [listed, Set.encard_coe_eq_coe_finsetCard, Finset.card_range]

/-- A signed word bounds the padded axis, so the count of windows is a word. -/
theorem exists_encard_windowStarts {padded kernel stride : ℕ} (step : 0 < stride)
    (bound : padded < 2 ^ 63) (fits : kernel ≤ padded) :
    ∃ count : UInt64, (windowStarts padded kernel stride).encard = count.toNat := by
  have few : (padded - kernel) / stride ≤ padded - kernel := Nat.div_le_self _ _
  have room : 2 ^ 63 < UInt64.size := by decide
  have same : (UInt64.ofNat ((padded - kernel) / stride + 1)).toNat =
      (padded - kernel) / stride + 1 := UInt64.toNat_ofNat_of_lt' (by omega)
  exact ⟨_, by rw [encard_windowStarts step fits, same]⟩

section Counts

variable {size : UInt64} {window step pad span : Int64} {kernel stride padding : ℕ}
  (window_eq : window.toInt = kernel) (step_eq : step.toInt = stride)
  (pad_eq : pad.toInt = padding) (someWindow : 0 < kernel) (someStep : 0 < stride)

include window_eq step_eq pad_eq someWindow someStep

theorem toInt_count (found : span? size window pad = some span) :
    (Word.floorDiv span step + 1).toInt = span.toInt / stride + 1 := by
  rw [toInt_floorDiv_add_one (by omega) (by omega) (by omega) found,
    Word.toInt_floorDiv (by omega), step_eq]
  rfl

theorem toNat_count (found : span? size window pad = some span)
    (fits : kernel ≤ size.toNat + 2 * padding) :
    0 < Word.floorDiv span step + 1 ∧ (Word.floorDiv span step + 1).toUInt64.toNat =
      (size.toNat + 2 * padding - kernel) / stride + 1 := by
  obtain ⟨_, value⟩ := (span?_eq_some_iff (by omega)).mp found
  have rest : span.toInt = (size.toNat + 2 * padding - kernel : ℕ) := by omega
  have total : (Word.floorDiv span step + 1).toInt =
      ((size.toNat + 2 * padding - kernel) / stride + 1 : ℕ) := by
    rw [toInt_count window_eq step_eq pad_eq someWindow someStep found, rest]
    rfl
  have converted : ((Word.floorDiv span step + 1).toUInt64.toNat : Int) = _ :=
    Word.toNat_toUInt64 (total ▸ Int.natCast_nonneg _)
  rw [Int64.lt_iff_toInt_lt, total]
  exact ⟨Int.natCast_pos.mpr (Nat.succ_pos _), Int.natCast_inj.mp (converted.trans total)⟩

theorem count_nonpos (found : span? size window pad = some span)
    (large : size.toNat + 2 * padding < kernel) :
    Word.floorDiv span step + 1 ≤ 0 := by
  obtain ⟨_, value⟩ := (span?_eq_some_iff (by omega)).mp found
  have below : span.toInt / stride < 0 := Int.ediv_neg_of_neg_of_pos (by omega) (by omega)
  rw [Int64.le_iff_toInt_le, toInt_count window_eq step_eq pad_eq someWindow someStep found,
    Int64.toInt_zero]
  omega

theorem windowCount_eq_ok_iff {axis : String} {count : UInt64} :
    windowCount axis size window step pad = .ok count ↔
      size.toNat + 2 * padding < 2 ^ 63 ∧ kernel ≤ size.toNat + 2 * padding ∧
        (windowStarts (size.toNat + 2 * padding) kernel stride).encard = count.toNat := by
  rw [windowCount_eq]
  cases found : span? size window pad with
  | none =>
    refine iff_of_false nofun ?_
    rintro ⟨bound, fits, _⟩
    obtain ⟨span, value⟩ := Word.exists_toInt
      (n := size.toNat + 2 * padding - kernel) (by omega) (by omega)
    have some_ : span? size window pad = some span :=
      (span?_eq_some_iff (by omega)).mpr ⟨by omega, by omega⟩
    rw [found] at some_
    contradiction
  | some span =>
    obtain ⟨bound, _⟩ := (span?_eq_some_iff (by omega)).mp found
    rcases Nat.lt_or_ge (size.toNat + 2 * padding) kernel with large | fits
    · have nonpos := count_nonpos window_eq step_eq pad_eq someWindow someStep found large
      simp [if_pos nonpos, Nat.not_le.mpr large]
    · obtain ⟨positive, value⟩ :=
        toNat_count window_eq step_eq pad_eq someWindow someStep found fits
      simp only [if_neg (Int64.not_le.mpr positive), Except.ok.injEq, ← UInt64.toNat_inj, value,
        encard_windowStarts someStep fits, Nat.cast_inj, fits, true_and]
      omega

end Counts

variable {params : Params}

theorem positiveParam_eq_ok_iff {name : String} {word : UInt64} :
    positiveParam params name = .ok word ↔ params.Reads name word.toNat ∧ 0 < word.toNat := by
  unfold positiveParam Params.Reads
  cases params.integer? name with
  | none => simp
  | some n =>
    by_cases positive : 0 < n.toInt
    · have value := Word.toNat_toUInt64 positive.le
      have sign : 0 < n := Int64.lt_iff_toInt_lt.mpr positive
      simp only [sign, if_true, Except.ok.injEq, ← UInt64.toNat_inj, Option.some.injEq,
        exists_eq_left']
      omega
    · have sign : ¬ 0 < n := mt Int64.lt_iff_toInt_lt.mp positive
      simp only [sign, if_false, reduceCtorEq, Option.some.injEq, exists_eq_left', false_iff]
      omega

/-- Where a parameter has an integer as its default, it is read as an integer or not set. -/
theorem integerOrDefault?_eq_some_iff {schema : Schema} {name : String} {default word : Int64}
    {d n : ℕ} (known : schema.default? name = some (.int default)) (default_eq : default.toInt = d)
    (word_eq : word.toInt = n) :
    params.integerOrDefault? schema name = some word ↔ params.ReadsOr name d n := by
  have read : params.integer? name = some word ↔ params.Reads name n := by
    constructor
    · intro read
      exact ⟨word, read, word_eq⟩
    · rintro ⟨other, read, value⟩
      obtain rfl : other = word := Int64.toInt_inj.mp (value.trans word_eq.symm)
      exact read
  unfold Params.integerOrDefault? Params.ReadsOr
  split
  · rename_i set
    simp [Params.isSet_iff.mp set, read]
  · rename_i unset
    have unset := mt Params.isSet_iff.mpr unset
    have unread : ¬ params.Reads name n := mt Params.Reads.sets unset
    simp only [known, Option.some.injEq, ← Int64.toInt_inj, unset, not_false_eq_true, true_and,
      unread, or_false]
    omega

theorem boundedParam_eq_ok_iff {name : String} {error : ShapeError} {default least word : Int64}
    {d l : ℕ} (known : Kind.conv2d.schema.default? name = some (.int default))
    (default_eq : default.toInt = d) (least_eq : least.toInt = l) :
    boundedParam params name least error = .ok word ↔
      ∃ n : ℕ, params.ReadsOr name d n ∧ l ≤ n ∧ word.toInt = n := by
  have taken : boundedParam params name least error = .ok word ↔
      params.integerOrDefault? Kind.conv2d.schema name = some word ∧ least ≤ word := by
    unfold boundedParam
    cases params.integerOrDefault? Kind.conv2d.schema name with
    | none => simp
    | some n => by_cases bound : least ≤ n <;> simp [bound] <;> grind
  rw [taken, Int64.le_iff_toInt_le, least_eq]
  constructor
  · rintro ⟨found, bound⟩
    obtain ⟨n, value⟩ := Int.eq_ofNat_of_zero_le ((Int.natCast_nonneg l).trans bound)
    exact ⟨n, (integerOrDefault?_eq_some_iff known default_eq value).mp found, by omega, value⟩
  · rintro ⟨n, reads, bound, value⟩
    exact ⟨(integerOrDefault?_eq_some_iff known default_eq value).mpr reads, by omega⟩

/-- What is read can be converted back and forth. -/
theorem exists_word_of_reads {name : String} {n : ℕ} (reads : params.Reads name n) :
    ∃ word : UInt64, word.toNat = n ∧ word.toInt64.toInt = n := by
  obtain ⟨word, _, value⟩ := reads
  have converted : (word.toUInt64.toNat : Int) = word.toInt := Word.toNat_toUInt64 (by omega)
  exact ⟨word.toUInt64, by omega, by rw [Int64.toInt64_toUInt64, value]⟩

theorem toInt_toInt64_of_reads {name : String} {word : UInt64}
    (reads : params.Reads name word.toNat) : word.toInt64.toInt = word.toNat := by
  obtain ⟨other, same, value⟩ := exists_word_of_reads reads
  obtain rfl := UInt64.toNat_inj.mp same
  exact value

theorem stride_eq_ok_iff {word : Int64} :
    boundedParam params "stride" 1 (.invalidParam "stride") = .ok word ↔
      ∃ stride : ℕ, params.ReadsOr "stride" 1 stride ∧ 1 ≤ stride ∧ word.toInt = stride :=
  boundedParam_eq_ok_iff rfl rfl rfl

theorem padding_eq_ok_iff {word : Int64} :
    boundedParam params "padding" 0 (.negativeParam "padding") = .ok word ↔
      ∃ padding : ℕ, params.ReadsOr "padding" 0 padding ∧ 0 ≤ padding ∧ word.toInt = padding :=
  boundedParam_eq_ok_iff rfl rfl rfl

/-- On the machine that stops at results that are not exact, a convolution never stops. -/
theorem Exact.run_conv2d (shape : Shape) (params : Params) :
    (Exact.conv2d shape params).run = some (Shape.conv2d shape params) := by
  unfold Exact.conv2d
  split
  · rename_i batch depth height width
    rw [conv2d_eq]
    refine run_bind rfl fun channels _ => run_bind rfl fun kernel read => ?_
    obtain ⟨reads, someWindow⟩ := positiveParam_eq_ok_iff.mp read
    have value := toInt_toInt64_of_reads reads
    have signed : Word.toSigned? kernel = some kernel.toInt64 :=
      Word.toSigned?_eq_some_iff.mpr value
    rw [signed, some_bind]
    refine run_bind rfl fun stride read => run_bind rfl fun padding read' => ?_
    obtain ⟨_, _, step, stride_eq⟩ := stride_eq_ok_iff.mp read
    obtain ⟨_, _, _, padding_eq⟩ := padding_eq_ok_iff.mp read'
    have counted (axis : String) (size : UInt64) :
        (windowCount axis size kernel.toInt64 stride padding).run =
          some (Shape.windowCount axis size kernel.toInt64 stride padding) :=
      run_windowCount (by omega) (by omega) (by omega)
    exact run_bind (counted "height" height) fun rows _ =>
      run_bind (counted "width" width) fun columns _ => rfl
  · rename_i other
    unfold Shape.conv2d
    split
    · exact (other _ _ _ _ rfl).elim
    · rfl

/-- How the window of a convolution slides over an image: its stride and its padding, with both
padded axes in the range of signed words. -/
structure Slides (params : Params) (height width : UInt64) (stride padding : ℕ) : Prop where
  strideRead : params.ReadsOr "stride" 1 stride
  step : 1 ≤ stride
  paddingRead : params.ReadsOr "padding" 0 padding
  rows : height.toNat + 2 * padding < 2 ^ 63
  columns : width.toNat + 2 * padding < 2 ^ 63

def Convolved (batch height width : UInt64) (channels kernel stride padding : ℕ) (shape : Shape) :
    Prop :=
  ∃ outputs rows columns : UInt64, shape = [batch, outputs, rows, columns] ∧
    outputs.toNat = channels ∧
    (windowStarts (height.toNat + 2 * padding) kernel stride).encard = rows.toNat ∧
    (windowStarts (width.toNat + 2 * padding) kernel stride).encard = columns.toNat

theorem conv2d_eq_ok_iff {channels kernel : ℕ} (outputs : params.Reads "out_channels" channels)
    (someOutput : 1 ≤ channels) (window : params.Reads "kernel_size" kernel)
    (someWindow : 1 ≤ kernel) {batch depth height width : UInt64} {shape : Shape} :
    conv2d [batch, depth, height, width] params = .ok shape ↔
      ∃ stride padding : ℕ, Slides params height width stride padding ∧
        kernel ≤ height.toNat + 2 * padding ∧ kernel ≤ width.toNat + 2 * padding ∧
        Convolved batch height width channels kernel stride padding shape := by
  obtain ⟨outputs', rfl, _⟩ := exists_word_of_reads outputs
  obtain ⟨window', rfl, window_eq⟩ := exists_word_of_reads window
  rw [conv2d_eq, positiveParam_eq_ok_iff.mpr ⟨outputs, someOutput⟩,
    positiveParam_eq_ok_iff.mpr ⟨window, someWindow⟩, ok_bind, ok_bind]
  simp only [bind_eq_ok_iff]
  constructor
  · rintro ⟨step, read, pad, read', rows, counted, columns, counted', result⟩
    obtain ⟨stride, reads, someStep, step_eq⟩ := stride_eq_ok_iff.mp read
    obtain ⟨padding, reads', _, pad_eq⟩ := padding_eq_ok_iff.mp read'
    obtain ⟨bound, fits, rows_eq⟩ :=
      (windowCount_eq_ok_iff window_eq step_eq pad_eq someWindow someStep).mp counted
    obtain ⟨bound', fits', columns_eq⟩ :=
      (windowCount_eq_ok_iff window_eq step_eq pad_eq someWindow someStep).mp counted'
    exact ⟨stride, padding, ⟨reads, someStep, reads', bound, bound'⟩, fits, fits',
      outputs', rows, columns, (Except.ok.inj result).symm, rfl, rows_eq, columns_eq⟩
  · rintro ⟨stride, padding, slides, fits, fits', outputs'', rows, columns, rfl, same, rows_eq,
      columns_eq⟩
    obtain rfl := UInt64.toNat_inj.mp same
    obtain ⟨step, step_eq⟩ := slides.strideRead.exists_toInt (by decide)
    obtain ⟨pad, pad_eq⟩ := slides.paddingRead.exists_toInt (by decide)
    have read := stride_eq_ok_iff.mpr ⟨stride, slides.strideRead, slides.step, step_eq⟩
    have read' := padding_eq_ok_iff.mpr ⟨padding, slides.paddingRead, padding.zero_le, pad_eq⟩
    have counted : windowCount "height" height window'.toInt64 step pad = .ok rows :=
      (windowCount_eq_ok_iff window_eq step_eq pad_eq someWindow slides.step).mpr
        ⟨slides.rows, fits, rows_eq⟩
    have counted' : windowCount "width" width window'.toInt64 step pad = .ok columns :=
      (windowCount_eq_ok_iff window_eq step_eq pad_eq someWindow slides.step).mpr
        ⟨slides.columns, fits', columns_eq⟩
    exact ⟨step, read, pad, read', rows, counted, columns, counted', rfl⟩

theorem Slides.unique {height width : UInt64} {stride padding stride' padding' : ℕ}
    (slides : Slides params height width stride padding)
    (slides' : Slides params height width stride' padding') :
    stride = stride' ∧ padding = padding' :=
  ⟨slides.strideRead.unique slides'.strideRead, slides.paddingRead.unique slides'.paddingRead⟩

theorem Slides.exists_convolved {batch height width : UInt64} {channels kernel stride padding : ℕ}
    (slides : Slides params height width stride padding)
    (outputs : params.Reads "out_channels" channels)
    (fits : kernel ≤ height.toNat + 2 * padding) (fits' : kernel ≤ width.toNat + 2 * padding) :
    ∃ shape, Convolved batch height width channels kernel stride padding shape := by
  obtain ⟨outputs', same, _⟩ := exists_word_of_reads outputs
  obtain ⟨rows, rows_eq⟩ :=
    exists_encard_windowStarts slides.step slides.rows fits
  obtain ⟨columns, columns_eq⟩ :=
    exists_encard_windowStarts slides.step slides.columns fits'
  exact ⟨_, outputs', rows, columns, rfl, same, rows_eq, columns_eq⟩

/-- A convolution counts windows. No step of its arithmetic is inexact. If its window slides over
the image, it has a shape exactly if the window fits into both padded axes, and then this shape
tells how often it fits. Otherwise it has an error. -/
theorem conv2d_counts_windows {channels kernel : ℕ}
    (outputs : params.Reads "out_channels" channels) (someOutput : 1 ≤ channels)
    (window : params.Reads "kernel_size" kernel) (someWindow : 1 ≤ kernel)
    (batch depth height width : UInt64) :
    (Exact.conv2d [batch, depth, height, width] params).run =
        some (Kind.conv2d.outputShape [[batch, depth, height, width]] params) ∧
      (∀ stride padding : ℕ, Slides params height width stride padding →
        ((∃ shape, Kind.conv2d.outputShape [[batch, depth, height, width]] params = .ok shape) ↔
          kernel ≤ height.toNat + 2 * padding ∧ kernel ≤ width.toNat + 2 * padding) ∧
        ∀ shape, Kind.conv2d.outputShape [[batch, depth, height, width]] params = .ok shape →
          Convolved batch height width channels kernel stride padding shape) ∧
      ((¬ ∃ stride padding : ℕ, Slides params height width stride padding) →
        ∃ error,
          Kind.conv2d.outputShape [[batch, depth, height, width]] params = .error error) := by
  have unfolded : Kind.conv2d.outputShape [[batch, depth, height, width]] params =
      conv2d [batch, depth, height, width] params := rfl
  rw [unfolded]
  refine ⟨Exact.run_conv2d _ _, fun stride padding slides => ?_, fun still => ?_⟩
  · have result (shape : Shape) : conv2d [batch, depth, height, width] params = .ok shape →
        kernel ≤ height.toNat + 2 * padding ∧ kernel ≤ width.toNat + 2 * padding ∧
        Convolved batch height width channels kernel stride padding shape := by
      intro found
      obtain ⟨stride', padding', slides', fits⟩ :=
        (conv2d_eq_ok_iff outputs someOutput window someWindow).mp found
      obtain ⟨rfl, rfl⟩ := slides.unique slides'
      exact fits
    refine ⟨⟨?_, ?_⟩, fun shape found => (result shape found).2.2⟩
    · rintro ⟨shape, found⟩
      exact ⟨(result shape found).1, (result shape found).2.1⟩
    · rintro ⟨fits, fits'⟩
      obtain ⟨shape, convolved⟩ := slides.exists_convolved outputs fits fits'
      exact ⟨shape, (conv2d_eq_ok_iff outputs someOutput window someWindow).mpr
        ⟨stride, padding, slides, fits, fits', convolved⟩⟩
  · cases found : conv2d [batch, depth, height, width] params with
    | error error => exact ⟨error, rfl⟩
    | ok shape =>
      obtain ⟨stride, padding, slides, _⟩ :=
        (conv2d_eq_ok_iff outputs someOutput window someWindow).mp found
      exact absurd ⟨stride, padding, slides⟩ still

def halving : Params :=
  ⟨[("in_channels", .word 3), ("out_channels", .word 16), ("kernel_size", .word 3),
    ("stride", .word 2), ("padding", .word 1)]⟩

theorem conv2d_counts_windows_halving :
    halving.Reads "out_channels" 16 ∧ halving.Reads "kernel_size" 3 ∧
    Slides halving 28 27 2 1 ∧
    Kind.conv2d.outputShape [[1, 3, 28, 27]] halving = .ok [1, 16, 14, 14] ∧
    Convolved 1 28 27 16 3 2 1 [1, 16, 14, 14] ∧
    ∃ error, Kind.conv2d.outputShape [[1, 3, 28, 18446744073709551615]] halving = .error error := by
  have outputs : halving.Reads "out_channels" 16 := ⟨16, rfl, rfl⟩
  have window : halving.Reads "kernel_size" 3 := ⟨3, rfl, rfl⟩
  have slides : Slides halving 28 27 2 1 :=
    ⟨.inr ⟨2, rfl, rfl⟩, by decide, .inr ⟨1, rfl, rfl⟩, by decide, by decide⟩
  have found : Kind.conv2d.outputShape [[1, 3, 28, 27]] halving = .ok [1, 16, 14, 14] := rfl
  obtain ⟨_, counted, _⟩ :=
    conv2d_counts_windows outputs (by decide) window (by decide) 1 3 28 27
  obtain ⟨_, _, failed⟩ :=
    conv2d_counts_windows outputs (by decide) window (by decide) 1 3 28 18446744073709551615
  have still : ¬ ∃ stride padding : ℕ, Slides halving 28 18446744073709551615 stride padding := by
    rintro ⟨_, _, slides⟩
    have bound := slides.columns
    simp at bound
    omega
  exact ⟨outputs, window, slides, found, (counted 2 1 slides).2 _ found, failed still⟩

end Shape

end LayerGraph
