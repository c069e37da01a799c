import LayerGraph.Document
import LayerGraph.Wiring

/-!
# Resolved graphs

The graph that a document describes. Of nodes with the same id only the first counts, nodes
without an id do not count at all, and an edge counts if both its ends do.
-/

namespace LayerGraph

/-- The nodes and edges of a document that count, in declaration order. -/
structure Graph where
  nodes : List Node
  edges : List Edge
  deriving Repr

namespace Graph

/-- The first declaration of every id that is not empty and not among those seen. -/
def firstDeclarations : List String → List Node → List Node
  | _, [] => []
  | seen, node :: rest =>
    if node.id = "" || seen.contains node.id then firstDeclarations seen rest
    else node :: firstDeclarations (node.id :: seen) rest

def ofDocument (document : Document) : Graph :=
  let nodes := firstDeclarations [] document.nodes
  let declared (id : String) : Bool := nodes.any fun node => node.id = id
  ⟨nodes, document.edges.filter fun edge => declared edge.source && declared edge.target⟩

def ids (graph : Graph) : List String :=
  graph.nodes.map (·.id)

def node? (graph : Graph) (id : String) : Option Node :=
  graph.nodes.find? fun node => node.id = id

def index? (graph : Graph) (id : String) : Option Nat :=
  graph.ids.idxOf? id

def kind? (graph : Graph) (id : String) : Option Kind :=
  (graph.node? id).bind Node.kind?

def wiring (graph : Graph) : Wiring String :=
  ⟨graph.ids, graph.edges.map fun edge => (edge.source, edge.target)⟩

end Graph

end LayerGraph
