import LayerGraph.Json.Value
import LayerGraph.Kind

/-!
# The catalog of layers

For every kind of layer the parameters it knows, those it needs, the defaults of the others, and
how many inputs it takes.
-/

namespace LayerGraph

inductive Arity where
  | exactly (n : Nat)
  /-- One or more, in no particular order. -/
  | variadic
  deriving DecidableEq, Repr

inductive Default where
  | int (n : Int64)
  | float (x : Binary64)
  | bool (b : Bool)
  | string (s : String)
  deriving DecidableEq, Repr

def Default.decimal (digits : UInt64) (exponent : Int) : Default :=
  .float ((Binary64.ofDecimal? false digits exponent).getD (.zero false))

structure Schema where
  kind : Kind
  /-- The parameters that the kind knows, in the order in which an editor shows them. -/
  params : List String
  required : List String
  defaults : List (String × Default)
  inputs : Arity
  outputs : Nat
  deriving Repr

namespace Schema

def default? (schema : Schema) (name : String) : Option Default :=
  (schema.defaults.find? fun entry => entry.1 = name).map (·.2)

def recognizes (schema : Schema) (name : String) : Bool :=
  schema.params.contains name

end Schema

namespace Kind

/-- A layer with one input and one output. -/
def layer (kind : Kind) (params required : List String) (defaults : List (String × Default)) :
    Schema :=
  ⟨kind, params, required, defaults, .exactly 1, 1⟩

/-- A convolution; kinds differ in the defaults of stride and padding. -/
def convolution (kind : Kind) (stride padding : Int64) : Schema :=
  kind.layer ["in_channels", "out_channels", "kernel_size", "stride", "padding"]
    ["in_channels", "out_channels", "kernel_size"]
    [("stride", .int stride), ("padding", .int padding)]

def pooling (kind : Kind) : Schema :=
  kind.layer ["kernel_size", "stride", "padding"] ["kernel_size"]
    [("stride", .int 2), ("padding", .int 0)]

def gated (kind : Kind) : Schema :=
  kind.layer ["input_size", "hidden_size", "num_layers", "bidirectional"]
    ["input_size", "hidden_size"] [("num_layers", .int 1), ("bidirectional", .bool false)]

/-- A layer that needs every parameter it knows. -/
def needing (kind : Kind) (params : List String) : Schema :=
  kind.layer params params []

def plain (kind : Kind) : Schema :=
  kind.layer [] [] []

def merging (kind : Kind) (params : List String) (defaults : List (String × Default)) : Schema :=
  ⟨kind, params, [], defaults, .variadic, 1⟩

def schema (kind : Kind) : Schema :=
  match kind with
  | .input => ⟨kind, ["shape"], ["shape"], [], .exactly 0, 1⟩
  | .output =>
    kind.layer ["outputType", "numClasses"] []
      [("outputType", .string "classification"), ("numClasses", .int 10)]
  | .conv1d | .conv2d | .conv3d => kind.convolution 1 0
  | .convTranspose2d => kind.convolution 2 1
  | .maxPool2d | .avgPool2d => kind.pooling
  | .adaptiveAvgPool2d => kind.layer ["output_size"] ["output_size"] [("output_size", .int 1)]
  | .linear => kind.needing ["in_features", "out_features"]
  | .flatten => kind.plain
  | .lstm | .gru => kind.gated
  | .rnn =>
    kind.layer ["input_size", "hidden_size", "num_layers"] ["input_size", "hidden_size"]
      [("num_layers", .int 1)]
  | .batchNorm | .instanceNorm => kind.needing ["num_features"]
  | .layerNorm => kind.needing ["normalized_shape"]
  | .groupNorm => kind.needing ["num_groups", "num_channels"]
  | .relu | .sigmoid | .tanh | .gelu | .silu => kind.plain
  | .leakyRelu => kind.layer ["negative_slope"] [] [("negative_slope", .decimal 1 (-2))]
  | .elu => kind.layer ["alpha"] [] [("alpha", .decimal 1 0)]
  | .softmax => kind.layer ["dim"] [] [("dim", .int 1)]
  | .dropout => kind.layer ["p"] [] [("p", .decimal 5 (-1))]
  | .reshape => kind.needing ["target_shape"]
  | .concatenate => kind.merging ["dim"] [("dim", .int 1)]
  | .add | .multiply => kind.merging [] []
  | .embedding => kind.needing ["num_embeddings", "embedding_dim"]
  | .multiHeadAttention => kind.needing ["embed_dim", "num_heads"]

end Kind

def catalog : List Schema :=
  Kind.all.map Kind.schema

open Json (Value)

/-- The number of inputs, or -1 if it is open. -/
def Arity.toJson : Arity → Value
  | .exactly n => .nat n
  | .variadic => .number (.signed (-1))

def Default.toJson : Default → Value
  | .int n => .number (.ofInt64 n)
  | .float x => .number (.float x)
  | .bool b => .bool b
  | .string s => .string s

def Schema.toJson (schema : Schema) : Value :=
  .object [
    ("type", .string schema.kind.name),
    ("params", .strings schema.params),
    ("required", .strings schema.required),
    ("defaults", .object (schema.defaults.map fun entry => (entry.1, entry.2.toJson))),
    ("inputs", schema.inputs.toJson),
    ("outputs", .nat schema.outputs)]

def catalogJson : Value :=
  .array (catalog.map Schema.toJson)

end LayerGraph
