import LayerGraph.Diagnostic
import LayerGraph.Graph

/-!
# Shape inference

Shapes flow from the input along an order of the nodes. A node takes the shape of its first
predecessor; if that has none, the node is passed over in silence, so only root causes are
reported.
-/

namespace LayerGraph

/-- The shapes found so far, by id, and the nodes that have none for a reason of their own. -/
structure Inference where
  shapes : List (String × Shape)
  failures : List (String × ShapeError)
  deriving DecidableEq, Repr

namespace Graph

/-- The shapes that a node of this kind works on. An input needs none; any other node needs the
shape of its first predecessor. -/
def operands? (graph : Graph) (shapes : List (String × Shape)) (id : String) (kind : Kind) :
    Option (List Shape) :=
  if kind = .input then some []
  else
    match graph.wiring.predecessors id with
    | [] => none
    | source :: _ => (Table.get? source shapes).map ([·])

/-- Infers the shape of one id. Unknown ids and types change nothing. -/
def infer (graph : Graph) (done : Inference) (id : String) : Inference :=
  match graph.node? id with
  | none => done
  | some node =>
    match node.kind? with
    | none => done
    | some kind =>
      match graph.operands? done.shapes id kind with
      | none => done
      | some operands =>
        match kind.outputShape operands node.params with
        | .ok shape => { done with shapes := Table.insert id shape done.shapes }
        | .error error => { done with failures := done.failures ++ [(id, error)] }

/-- Infers shapes along a list of ids, which may repeat or miss any. -/
def inferShapes (graph : Graph) (order : List String) : Inference :=
  order.foldl graph.infer ⟨[], []⟩

end Graph

def Inference.diagnostics (inference : Inference) : List Diagnostic :=
  inference.failures.map fun failure => .ofNode failure.1 (.noShape failure.2)

end LayerGraph
