import LayerGraph.Wiring

/-!
# Search for cycles

A depth-first search that marks the vertices on its current path. An arc to a vertex on the path
closes a cycle. The search is a machine with a pure step, run for as many steps as a search of the
whole wiring can take.
-/

namespace LayerGraph

namespace Wiring

variable {V : Type} [DecidableEq V]

inductive Mark where
  | unvisited
  | onPath
  | done
  deriving DecidableEq, Repr

/-- The state of a search: the vertices still to start from, the current path with the successors
not yet looked at, innermost vertex first, and the marks. -/
structure Search (V : Type) where
  roots : List V
  path : List (V × List V)
  mark : V → Mark

inductive Progress (V : Type) where
  | goOn (search : Search V)
  | cyclic
  | acyclic

namespace Search

def start (w : Wiring V) : Search V :=
  ⟨w.vertices, [], fun _ => .unvisited⟩

/-- Puts a vertex on the path. Its successors are looked at from the last arc to the first. -/
def enter (w : Wiring V) (s : Search V) (v : V) : Search V :=
  { s with path := (v, (w.successors v).reverse) :: s.path, mark := assign s.mark v .onPath }

/-- One step: look at the next arc of the innermost vertex, or leave that vertex, or start from
the next root. -/
def step (w : Wiring V) (s : Search V) : Progress V :=
  match s.path with
  | (v, []) :: path => .goOn { s with path, mark := assign s.mark v .done }
  | (v, next :: left) :: path =>
    let s := { s with path := (v, left) :: path }
    match s.mark next with
    | .onPath => .cyclic
    | .unvisited => .goOn (s.enter w next)
    | .done => .goOn s
  | [] =>
    match s.roots with
    | [] => .acyclic
    | root :: roots =>
      let s := { s with roots }
      if s.mark root = .unvisited then .goOn (s.enter w root) else .goOn s

def run (w : Wiring V) : Nat → Search V → Bool
  | 0, _ => false
  | fuel + 1, s =>
    match s.step w with
    | .goOn s => run w fuel s
    | .cyclic => true
    | .acyclic => false

end Search

/-- Whether a wiring has a cycle. Every arc is looked at once, every vertex is left once and is a
root once, and one last step ends the search. -/
def hasCycle (w : Wiring V) : Bool :=
  Search.run w (w.arcs.length + 2 * w.vertices.length + 1) (.start w)

end Wiring

end LayerGraph
