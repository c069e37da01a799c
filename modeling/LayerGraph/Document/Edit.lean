import LayerGraph.Document

/-!
# Editing documents

The single steps by which an editor changes a document. Steps that need an existing node or edge
fail without it.
-/

namespace LayerGraph

namespace Document

def addNode (document : Document) (node : Node) : Document :=
  { document with nodes := document.nodes ++ [node] }

def addEdge (document : Document) (edge : Edge) : Document :=
  { document with edges := document.edges ++ [edge] }

def changeFirst? {α : Type} (test : α → Bool) (change : α → α) : List α → Option (List α)
  | [] => none
  | x :: rest =>
    if test x then some (change x :: rest) else (changeFirst? test change rest).map (x :: ·)

/-- Sets a parameter of the first node with an id. -/
def setParam? (document : Document) (id name : String) (x : Json.Value) : Option Document :=
  (changeFirst? (fun node => node.id = id)
    (fun node : Node => { node with params := node.params.set name x }) document.nodes).map
    fun nodes => { document with nodes }

def removeNode? (document : Document) (index : Nat) : Option Document :=
  if index < document.nodes.length then
    some { document with nodes := document.nodes.eraseIdx index }
  else none

def removeEdge? (document : Document) (index : Nat) : Option Document :=
  if index < document.edges.length then
    some { document with edges := document.edges.eraseIdx index }
  else none

end Document

end LayerGraph
