import LayerGraph.Graph.Inference
import LayerGraph.Graph.LayerName
import LayerGraph.Graph.Structure
import LayerGraph.Weights
import LayerGraph.Wiring.Schedule

/-!
# Analysis of a document

All stages in order: rules for nodes and structure, schedule and shapes, weights and layer names.
The stages are gated: none starts if one before it found a defect, so shape errors never pile up
on structural ones and a broken graph has no count of weights.
-/

namespace LayerGraph

def Graph.totalWeights (graph : Graph) : UInt64 :=
  (graph.nodes.filterMap fun node => node.kind?.map fun kind => kind.weightCount node.params).foldl
    Word.addClipped 0

/-- What an analysis yields. Without diagnostics the document is valid. -/
structure Analysis where
  diagnostics : List Diagnostic
  order : List String
  shapes : List (String × Shape)
  layerNames : List LayerName
  totalWeights : UInt64
  deriving DecidableEq, Repr

namespace Analysis

/-- An analysis that found defects before it came to a schedule. -/
def failed (diagnostics : List Diagnostic) : Analysis :=
  ⟨diagnostics, [], [], [], 0⟩

def isValid (analysis : Analysis) : Bool :=
  analysis.diagnostics.isEmpty

def lines (analysis : Analysis) : List String :=
  analysis.diagnostics.map Diagnostic.line

end Analysis

def Document.analyze (document : Document) : Analysis :=
  if document.nodes.isEmpty then .failed [.ofGraph .noNodes]
  else
    let graph := Graph.ofDocument document
    let defects := graph.diagnostics document
    if !defects.isEmpty then .failed defects
    else
      match graph.wiring.schedule? with
      | none => .failed [.ofGraph .unschedulable]
      | some order =>
        let inference := graph.inferShapes order
        if !inference.failures.isEmpty then
          ⟨inference.diagnostics, order, inference.shapes, [], 0⟩
        else
          ⟨[], order, inference.shapes, graph.layerNames order, graph.totalWeights⟩

def Document.executionOrder (document : Document) : Except (List Diagnostic) (List String) :=
  let analysis := document.analyze
  if analysis.isValid then .ok analysis.order else .error analysis.diagnostics

open Json (Value)

def Shape.toJson (shape : Shape) : Value :=
  .array (shape.map .word)

def shapesJson (shapes : List (String × Shape)) : Value :=
  .object (shapes.map fun entry => (entry.1, Shape.toJson entry.2))

def Analysis.toJson (analysis : Analysis) : Value :=
  .object [
    ("diagnostics", .array (analysis.diagnostics.map Diagnostic.toJson)),
    ("execution_order", .strings analysis.order),
    ("shapes", shapesJson analysis.shapes),
    ("layer_names", .array (analysis.layerNames.map LayerName.toJson)),
    ("total_params", .word analysis.totalWeights)]

end LayerGraph
