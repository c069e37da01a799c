/-!
# Kinds of layer

The closed set of layer kinds that a node of a network graph can declare, and the
name by which a document writes each of them.
-/

namespace LayerGraph

/-- The kinds of layer, in the order in which the catalog lists them. -/
inductive Kind where
  | input | output
  | conv1d | conv2d | conv3d | convTranspose2d | maxPool2d | avgPool2d | adaptiveAvgPool2d
  | linear | flatten
  | lstm | gru | rnn
  | batchNorm | layerNorm | groupNorm | instanceNorm
  | relu | leakyRelu | sigmoid | tanh | gelu | elu | silu | softmax
  | dropout | reshape | concatenate | add | multiply | embedding
  | multiHeadAttention
  deriving DecidableEq, Repr

namespace Kind

def all : List Kind :=
  [.input, .output,
   .conv1d, .conv2d, .conv3d, .convTranspose2d, .maxPool2d, .avgPool2d, .adaptiveAvgPool2d,
   .linear, .flatten,
   .lstm, .gru, .rnn,
   .batchNorm, .layerNorm, .groupNorm, .instanceNorm,
   .relu, .leakyRelu, .sigmoid, .tanh, .gelu, .elu, .silu, .softmax,
   .dropout, .reshape, .concatenate, .add, .multiply, .embedding,
   .multiHeadAttention]

theorem mem_all (kind : Kind) : kind ∈ all := by
  cases kind <;> decide

def name : Kind → String
  | .input => "input"
  | .output => "output"
  | .conv1d => "conv1d"
  | .conv2d => "conv2d"
  | .conv3d => "conv3d"
  | .convTranspose2d => "convtranspose2d"
  | .maxPool2d => "maxpool2d"
  | .avgPool2d => "avgpool2d"
  | .adaptiveAvgPool2d => "adaptiveavgpool2d"
  | .linear => "linear"
  | .flatten => "flatten"
  | .lstm => "lstm"
  | .gru => "gru"
  | .rnn => "rnn"
  | .batchNorm => "batchnorm"
  | .layerNorm => "layernorm"
  | .groupNorm => "groupnorm"
  | .instanceNorm => "instancenorm"
  | .relu => "relu"
  | .leakyRelu => "leakyrelu"
  | .sigmoid => "sigmoid"
  | .tanh => "tanh"
  | .gelu => "gelu"
  | .elu => "elu"
  | .silu => "silu"
  | .softmax => "softmax"
  | .dropout => "dropout"
  | .reshape => "reshape"
  | .concatenate => "concatenate"
  | .add => "add"
  | .multiply => "multiply"
  | .embedding => "embedding"
  | .multiHeadAttention => "multiheadattention"

/-- The kind that a text names. ASCII letters match in either case, all other characters
only themselves. -/
def ofName? (text : String) : Option Kind :=
  all.find? fun kind => kind.name.toList = text.toList.map Char.toLower

def ofExactName? (text : String) : Option Kind :=
  all.find? fun kind => kind.name = text

def unknownNameMessage (text : String) : String :=
  "unknown variant `" ++ text ++ "`, expected one of " ++
    String.intercalate ", " (all.map fun kind => "`" ++ kind.name ++ "`")

/-- Functional kinds are applied as plain functions and own no named layer. -/
def isFunctional : Kind → Bool
  | .input | .relu | .flatten | .softmax => true
  | _ => false

end Kind

end LayerGraph
