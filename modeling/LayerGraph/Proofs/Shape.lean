import LayerGraph.Proofs.Except
import LayerGraph.Proofs.NodeRules
import LayerGraph.Shape

/-!
# What layers make of shapes

The rules for nodes look at the parameters that the layers read later. So a node that has passed
them can only fail for what the rules leave open, and a shape that it makes keeps the batch in
front. The layers are taken one by one; `Kind.outputShape_answers` puts them together.
-/

namespace LayerGraph

/-- The failures that the rules for nodes leave open: a declared shape that is none, a shape that
does not fit a convolution, its optional parameters, and products beyond 64 bits. -/
inductive ShapeError.Genuine : Kind → ShapeError → Prop where
  | missingInputShape : Genuine .input .missingInputShape
  | malformedInputShape : Genuine .input .malformedInputShape
  | rank {actual : Shape} (other : actual.length ≠ 4) :
      Genuine .conv2d (.rankMismatch .conv2d 4 actual)
  | stride : Genuine .conv2d (.invalidParam "stride")
  | padding : Genuine .conv2d (.negativeParam "padding")
  | window {axis : String} {count : Int64} (none : count ≤ 0) :
      Genuine .conv2d (.nonPositiveDimension axis count)
  | windowOverflow : Genuine .conv2d .overflow
  | productOverflow : Genuine .flatten .overflow

structure Shape.Settled (kind : Kind) (batch : UInt64) (shape : Shape) : Prop where
  front : shape.head? = some batch
  matrix : kind = .linear ∨ kind = .flatten → shape.length = 2
  image : kind = .conv2d →
    ∃ channels height width, shape = [batch, channels, height, width] ∧ 1 ≤ height ∧ 1 ≤ width

def Kind.Answers (kind : Kind) (batch : UInt64) : Except ShapeError Shape → Prop
  | .ok shape => Shape.Settled kind batch shape
  | .error error => error.Genuine kind

@[simp] theorem Kind.answers_error {kind : Kind} {batch : UInt64} {error : ShapeError} :
    kind.Answers batch (.error error) ↔ error.Genuine kind :=
  Iff.rfl

namespace Shape

/-- The declared shape is a list of words that is not empty. -/
theorem declared_eq_ok {params : Params} {shape : Shape} (declared : declared params = .ok shape) :
    ∃ batch rest dimensions, shape = batch :: rest ∧
      params.get? "shape" = some (.array (.number (.unsigned batch) :: dimensions)) := by
  unfold Shape.declared at declared
  split at declared
  · contradiction
  · contradiction
  · rename_i dimensions notEmpty found
    cases dimensions with
    | nil => exact (notEmpty rfl).elim
    | cons first rest =>
      cases head : dimension? first with
      | none => simp [head] at declared
      | some batch =>
        cases tail : rest.mapM dimension? with
        | none => simp [head, tail] at declared
        | some sizes =>
          obtain rfl : batch :: sizes = shape := by simpa [head, tail] using declared
          have word : first = .number (.unsigned batch) := by
            unfold dimension? at head
            split at head
            · rw [Option.some.inj head]
            · contradiction
          exact ⟨batch, sizes, rest, rfl, word ▸ found⟩
  · contradiction

theorem declared_eq_error {params : Params} {error : ShapeError}
    (failed : declared params = .error error) : error.Genuine .input := by
  unfold declared at failed
  split at failed
  · obtain rfl := Except.error.inj failed
    exact .missingInputShape
  · obtain rfl := Except.error.inj failed
    exact .missingInputShape
  · split at failed
    · contradiction
    · obtain rfl := Except.error.inj failed
      exact .malformedInputShape
  · obtain rfl := Except.error.inj failed
    exact .malformedInputShape

theorem positiveParam_of_positive {params : Params} {name : String}
    (positive : params.Positive name) : ∃ n, positiveParam params name = .ok n := by
  obtain ⟨n, read, sign⟩ := positive
  exact ⟨n.toUInt64, by simp [positiveParam, read, sign]⟩

theorem one_le_toUInt64 {n : Int64} (positive : ¬ n ≤ 0) : 1 ≤ n.toUInt64 := by
  have bound : 0 < n.toInt := by
    rw [Int64.le_iff_toInt_le] at positive
    simpa using positive
  have nonneg : 0 ≤ n := by
    rw [Int64.le_iff_toInt_le]
    exact bound.le
  rw [UInt64.le_iff_toNat_le, Int64.toNat_toUInt64_of_le nonneg]
  simp only [Int64.toNatClampNeg, UInt64.reduceToNat]
  omega

/-- Windows are counted from one. If there are none, or the numbers leave 64 bits, that is a
failure of a convolution. -/
theorem windowCount_answers (axis : String) (size : UInt64) (kernel stride padding : Int64) :
    (∃ count, windowCount axis size kernel stride padding = .ok count ∧ 1 ≤ count) ∨
    ∃ error, windowCount axis size kernel stride padding = .error error ∧
      error.Genuine .conv2d := by
  unfold windowCount
  dsimp only
  split
  · exact .inr ⟨_, rfl, .windowOverflow⟩
  · split
    · rename_i none
      exact .inr ⟨_, rfl, .window none⟩
    · rename_i some
      exact .inl ⟨_, rfl, one_le_toUInt64 some⟩

variable {batch : UInt64} {shape : Shape} {params : Params}

theorem linear_answers (front : shape.head? = some batch)
    (positive : params.Positive "out_features") :
    Kind.linear.Answers batch (linear shape params) := by
  obtain ⟨rest, rfl⟩ := List.head?_eq_some_iff.mp front
  obtain ⟨features, read⟩ := positiveParam_of_positive positive
  simp only [linear, read]
  exact ⟨rfl, fun _ => rfl, fun h => by contradiction⟩

theorem flatten_answers (front : shape.head? = some batch) :
    Kind.flatten.Answers batch (flatten shape) := by
  obtain ⟨rest, rfl⟩ := List.head?_eq_some_iff.mp front
  simp only [flatten]
  split
  · exact ⟨rfl, fun _ => rfl, fun h => by contradiction⟩
  · exact .productOverflow

/-- Once all parameters are read, only the windows along the two axes can be at fault. -/
theorem windows_answers (batch channels height width : UInt64) (kernel stride padding : Int64) :
    Kind.conv2d.Answers batch (do
      let height ← windowCount "height" height kernel stride padding
      let width ← windowCount "width" width kernel stride padding
      return [batch, channels, height, width]) := by
  rcases windowCount_answers "height" height kernel stride padding with
    ⟨rows, counted, oneRow⟩ | ⟨error, counted, genuine⟩
  · rcases windowCount_answers "width" width kernel stride padding with
      ⟨columns, counted', oneColumn⟩ | ⟨error, counted', genuine⟩
    · rw [counted, counted']
      exact ⟨rfl, by simp, fun _ => ⟨channels, rows, columns, rfl, oneRow, oneColumn⟩⟩
    · rw [counted, counted']
      exact genuine
  · rw [counted]
    exact genuine

theorem conv2d_answers (front : shape.head? = some batch)
    (positive : ∀ name ∈ ["in_channels", "out_channels", "kernel_size"], params.Positive name) :
    Kind.conv2d.Answers batch (conv2d shape params) := by
  obtain ⟨channels, readChannels⟩ := positiveParam_of_positive (positive "out_channels" (by simp))
  obtain ⟨kernel, readKernel⟩ := positiveParam_of_positive (positive "kernel_size" (by simp))
  unfold conv2d
  split
  · rename_i first _ height width
    obtain rfl : first = batch := by simpa using front
    rw [readChannels, readKernel]
    cases params.integerOrDefault? Kind.conv2d.schema "stride" with
    | none => exact .stride
    | some stride =>
      by_cases strides : 0 < stride
      · cases params.integerOrDefault? Kind.conv2d.schema "padding" with
        | none => simpa [strides] using ShapeError.Genuine.padding
        | some padding =>
          by_cases pads : 0 ≤ padding
          · simpa [strides, pads] using
              windows_answers first channels height width kernel.toInt64 stride padding
          · simpa [strides, pads] using ShapeError.Genuine.padding
      · simpa [strides] using ShapeError.Genuine.stride
  · rename_i other
    refine .rank fun rank => ?_
    obtain ⟨a, b, c, d, rfl⟩ := List.length_eq_four.mp rank
    exact other a b c d rfl

end Shape

/-- A layer with configured parameters answers as it should to a shape with the batch in front. -/
theorem Kind.outputShape_answers {node : Node} {kind : Kind} {batch : UInt64} {operand : Shape}
    (configured : node.Configured kind) (inner : kind ≠ .input)
    (front : operand.head? = some batch) :
    kind.Answers batch (kind.outputShape [operand] node.params) := by
  cases kind
  case input => exact absurd rfl inner
  case linear =>
    exact Shape.linear_answers front (configured.linear rfl "out_features" (by simp))
  case conv2d => exact Shape.conv2d_answers front (configured.conv2d rfl)
  case flatten => exact Shape.flatten_answers front
  all_goals exact ⟨front, by simp, by simp⟩

end LayerGraph
