import LayerGraph.Number.Word
import LayerGraph.Params

/-!
# Shapes and how layers change them

A shape lists the dimensions of a tensor, the batch first. Every kind of layer has a rule for the
shape of its output; all kinds without a rule of their own pass on the shape of their input.
-/

namespace LayerGraph

/-- The dimensions of a tensor, batch first. -/
abbrev Shape := List UInt64

inductive ShapeError where
  | missingInputShape
  | malformedInputShape
  | noOperand
  | rankMismatch (kind : Kind) (expected : Nat) (actual : Shape)
  | missingBatchDimension (kind : Kind)
  | invalidParam (name : String)
  | negativeParam (name : String)
  | nonPositiveDimension (axis : String) (value : Int64)
  | overflow
  deriving DecidableEq, Repr

def Shape.text (shape : Shape) : String :=
  "[" ++ String.intercalate ", " (shape.map fun d => toString d.toNat) ++ "]"

namespace ShapeError

def message : ShapeError → String
  | .missingInputShape => "Input node missing shape"
  | .malformedInputShape => "Input shape must be a list of non-negative integers"
  | .noOperand => "no input shape to propagate"
  | .rankMismatch kind expected actual =>
    kind.name ++ " expects an input of rank " ++ toString expected ++ ", got " ++ Shape.text actual
  | .missingBatchDimension kind =>
    kind.name ++ " expects an input with a batch dimension, got an empty shape"
  | .invalidParam name => "parameter '" ++ name ++ "' must be a positive integer"
  | .negativeParam name => "parameter '" ++ name ++ "' must be a non-negative integer"
  | .nonPositiveDimension axis value =>
    "derived " ++ axis ++ " dimension is " ++ toString value.toInt ++ ", must be positive"
  | .overflow => "flattened dimension overflows"

end ShapeError

namespace Shape

/-- The first of the operands. No kind looks at another one. -/
def firstOperand (operands : List Shape) : Except ShapeError Shape :=
  match operands with
  | [] => .error .noOperand
  | shape :: _ => .ok shape

def dimension? : Json.Value → Option UInt64
  | .number (.unsigned n) => some n
  | _ => none

/-- The shape that an input node declares. An empty list counts as missing. -/
def declared (params : Params) : Except ShapeError Shape :=
  match params.get? "shape" with
  | none => .error .missingInputShape
  | some (.array []) => .error .missingInputShape
  | some (.array dimensions) =>
    match dimensions.mapM dimension? with
    | some shape => .ok shape
    | none => .error .malformedInputShape
  | some _ => .error .malformedInputShape

def positiveParam (params : Params) (name : String) : Except ShapeError UInt64 :=
  match params.integer? name with
  | some n => if 0 < n then .ok n.toUInt64 else .error (.invalidParam name)
  | none => .error (.invalidParam name)

/-- How many positions a window has along one axis: with the padding on both sides, the window
starts at every multiple of the stride from which it still fits. A window that fits nowhere is an
error with the count that the formula gives. -/
def windowCount (axis : String) (size : UInt64) (kernel stride padding : Int64) :
    Except ShapeError UInt64 :=
  let span? : Option Int64 := do
    let size ← Word.toSigned? size
    let margin ← Word.mul? padding 2
    let padded ← Word.add? size margin
    Word.sub? padded kernel
  match span? with
  | none => .error .overflow
  | some span =>
    let count := Word.floorDiv span stride + 1
    if count ≤ 0 then .error (.nonPositiveDimension axis count) else .ok count.toUInt64

def linear (shape : Shape) (params : Params) : Except ShapeError Shape :=
  match shape with
  | [] => .error (.missingBatchDimension .linear)
  | batch :: _ => do
    let features ← positiveParam params "out_features"
    return [batch, features]

/-- A two-dimensional convolution replaces the channels and counts windows along both axes. -/
def conv2d (shape : Shape) (params : Params) : Except ShapeError Shape :=
  match shape with
  | [batch, _, height, width] => do
    let channels ← positiveParam params "out_channels"
    let kernel ← positiveParam params "kernel_size"
    let stride ←
      match params.integerOrDefault? Kind.conv2d.schema "stride" with
      | some n => if 0 < n then Except.ok n else .error (.invalidParam "stride")
      | none => .error (.invalidParam "stride")
    let padding ←
      match params.integerOrDefault? Kind.conv2d.schema "padding" with
      | some n => if 0 ≤ n then Except.ok n else .error (.negativeParam "padding")
      | none => .error (.negativeParam "padding")
    let height ← windowCount "height" height kernel.toInt64 stride padding
    let width ← windowCount "width" width kernel.toInt64 stride padding
    return [batch, channels, height, width]
  | _ => .error (.rankMismatch .conv2d 4 shape)

def flatten (shape : Shape) : Except ShapeError Shape :=
  match shape with
  | [] => .error (.missingBatchDimension .flatten)
  | batch :: rest =>
    match rest.foldlM Word.times? 1 with
    | some product => .ok [batch, product]
    | none => .error .overflow

end Shape

def Kind.outputShape (kind : Kind) (operands : List Shape) (params : Params) :
    Except ShapeError Shape :=
  match kind with
  | .input => Shape.declared params
  | .linear => do
    let shape ← Shape.firstOperand operands
    Shape.linear shape params
  | .conv2d => do
    let shape ← Shape.firstOperand operands
    Shape.conv2d shape params
  | .flatten => do
    let shape ← Shape.firstOperand operands
    Shape.flatten shape
  | _ => Shape.firstOperand operands

end LayerGraph
