import LayerGraph.Json.Printer
import LayerGraph.Params

/-!
# Graph documents

A network graph as an editor sends it: nodes with an id, a type and parameters, and edges between
ids. A document says nothing about whether its types exist, its ids are distinct or its edges lead
anywhere.
-/

namespace LayerGraph

open Json (Value)

/-- A node as declared. An id or type that is missing is empty. -/
structure Node where
  id : String
  typeName : String
  params : Params
  deriving Repr, Inhabited

structure Edge where
  source : String
  target : String
  deriving DecidableEq, Repr, Inhabited

structure Document where
  nodes : List Node
  edges : List Edge
  deriving Repr, Inhabited

namespace Node

def ofKind (id : String) (kind : Kind) (params : Params) : Node :=
  ⟨id, kind.name, params⟩

def kind? (node : Node) : Option Kind :=
  Kind.ofName? node.typeName

def isInput (node : Node) : Bool :=
  node.kind? = some .input

def toJson (node : Node) : Value :=
  .object [
    ("id", .string node.id),
    ("type", .string node.typeName),
    ("data", .object [("params", node.params.toJson)])]

end Node

def Edge.toJson (edge : Edge) : Value :=
  .object [("source", .string edge.source), ("target", .string edge.target)]

namespace Document

def empty : Document :=
  ⟨[], []⟩

def toJson (document : Document) : Value :=
  .object [
    ("nodes", .array (document.nodes.map Node.toJson)),
    ("edges", .array (document.edges.map Edge.toJson))]

def text (document : Document) : String :=
  document.toJson.text

end Document

end LayerGraph
