import LayerGraph.Graph
import LayerGraph.NodeRules
import LayerGraph.Wiring.Cycle

/-!
# Rules for whole graphs

A graph has one input, distinct ids, edges between declared nodes, as many edges into a node as
its kind takes, and no cycle. Each rule finds its own defects, in the order given here.
-/

namespace LayerGraph

def Document.inputDefects (document : Document) : List Diagnostic :=
  match document.nodes.countP Node.isInput with
  | 0 => [.ofGraph .noInput]
  | 1 => []
  | _ => [.ofGraph .severalInputs]

/-- The strings that occur again, each where it does so for the first time. -/
def repeated : (seen found : List String) → List String → List String
  | _, _, [] => []
  | seen, found, x :: rest =>
    if seen.contains x then
      if found.contains x then repeated seen found rest else x :: repeated seen (x :: found) rest
    else repeated (x :: seen) found rest

/-- Ids are distinct; empty ones are left to the rules for nodes. -/
def Document.idDefects (document : Document) : List Diagnostic :=
  (repeated [] [] ((document.nodes.map (·.id)).filter (· ≠ ""))).map (.ofNode · .repeatedId)

namespace Graph

def declares (graph : Graph) (id : String) : Bool :=
  (graph.index? id).isSome

/-- An edge connects declared nodes. If neither end is declared, the source is named. -/
def edgeDefects (graph : Graph) (edge : Edge) : List Diagnostic :=
  if !graph.declares edge.source then [.ofGraph (.unknownSource edge.source)]
  else if !graph.declares edge.target then [.ofGraph (.unknownTarget edge.target)]
  else []

def arityDefects (graph : Graph) (node : Node) : List Diagnostic :=
  match node.kind? with
  | none => []
  | some kind =>
    match kind.schema.inputs with
    | .variadic => []
    | .exactly expected =>
      let actual := graph.wiring.incoming node.id
      if 0 < expected && actual = 0 then [.ofNode node.id (.missingInputs kind expected)]
      else if expected < actual then [.ofNode node.id (.surplusInputs kind actual expected)]
      else []

def cycleDefects (graph : Graph) : List Diagnostic :=
  if graph.wiring.hasCycle then [.ofGraph .cyclic] else []

def structuralDiagnostics (graph : Graph) (document : Document) : List Diagnostic :=
  document.inputDefects ++ document.idDefects ++ document.edges.flatMap graph.edgeDefects ++
    graph.nodes.flatMap graph.arityDefects ++ graph.cycleDefects

def diagnostics (graph : Graph) (document : Document) : List Diagnostic :=
  document.nodes.flatMap Node.diagnostics ++ graph.structuralDiagnostics document

end Graph

end LayerGraph
