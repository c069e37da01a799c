import LayerGraph.Number.Word
import LayerGraph.Params

/-!
# Numbers of learnable weights

How many weights a layer trains. Counts stop at the greatest 64-bit word.
-/

namespace LayerGraph

/-- A parameter as a count. What is not a non-negative integer counts as zero. -/
def Params.count (params : Params) (name : String) : UInt64 :=
  match params.integer? name with
  | some n => if 0 ≤ n then n.toUInt64 else 0
  | none => 0

def Kind.weightCount (kind : Kind) (params : Params) : UInt64 :=
  match kind with
  | .linear =>
    let outputs := params.count "out_features"
    Word.addClipped (Word.mulClipped (params.count "in_features") outputs) outputs
  | .conv2d =>
    let channels := params.count "out_channels"
    let kernel := params.count "kernel_size"
    Word.addClipped
      (Word.mulClipped (Word.mulClipped (params.count "in_channels") channels)
        (Word.mulClipped kernel kernel))
      channels
  | .batchNorm => Word.mulClipped (params.count "num_features") 2
  | _ => 0

end LayerGraph
