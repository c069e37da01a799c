import LayerGraph.Graph

/-!
# Names of layers

Nodes that own a layer get a name for it: their kind and a number that counts the layers of that
kind, in the order of the nodes.
-/

namespace LayerGraph

structure LayerName where
  nodeId : String
  kind : Kind
  number : Nat
  deriving DecidableEq, Repr

namespace LayerName

def text (name : LayerName) : String :=
  name.kind.name ++ toString name.number

def toJson (name : LayerName) : Json.Value :=
  .object [("node_id", .string name.nodeId), ("layer_name", .string name.text)]

end LayerName

namespace Graph

/-- Names the layers of further ids; `named` are the kinds of the layers named before. -/
def layerNamesAfter (graph : Graph) : (named : List Kind) → List String → List LayerName
  | _, [] => []
  | named, id :: rest =>
    match graph.kind? id with
    | none => layerNamesAfter graph named rest
    | some kind =>
      if kind.isFunctional then layerNamesAfter graph named rest
      else ⟨id, kind, named.count kind + 1⟩ :: layerNamesAfter graph (kind :: named) rest

def layerNames (graph : Graph) (order : List String) : List LayerName :=
  graph.layerNamesAfter [] order

end Graph

end LayerGraph
