import LayerGraph.Wiring

/-!
# Schedules

An order of the vertices in which every arc leads forward. Vertices are emitted from a queue, and
a vertex joins the queue when the last of its arcs has been walked. So the order of declaration
breaks all ties.
-/

namespace LayerGraph

namespace Wiring

variable {V : Type} [DecidableEq V]

/-- The state of scheduling: how many arcs into each vertex have not been walked yet, the vertices
that wait for nothing, and those emitted. -/
structure Scheduling (V : Type) where
  waiting : V → Nat
  queue : List V
  order : List V

namespace Scheduling

def start (w : Wiring V) : Scheduling V :=
  ⟨w.incoming, w.vertices.filter fun v => w.incoming v = 0, []⟩

/-- Walks an arc into a vertex, which joins the queue if this was the last. -/
def release (s : Scheduling V) (v : V) : Scheduling V :=
  let left := s.waiting v - 1
  { s with
    waiting := assign s.waiting v left
    queue := if left = 0 then s.queue ++ [v] else s.queue }

/-- Emits the first vertex of the queue and walks its arcs; nothing if the queue is empty. -/
def step? (w : Wiring V) (s : Scheduling V) : Option (Scheduling V) :=
  match s.queue with
  | [] => none
  | v :: queue => some ((w.successors v).foldl release { s with queue, order := s.order ++ [v] })

def run (w : Wiring V) : Nat → Scheduling V → Scheduling V
  | 0, s => s
  | fuel + 1, s =>
    match s.step? w with
    | none => s
    | some s => run w fuel s

end Scheduling

/-- The schedule of a wiring; none if some vertex is never released. No vertex is emitted twice,
so there are no more steps than vertices. -/
def schedule? (w : Wiring V) : Option (List V) :=
  let order := (Scheduling.run w w.vertices.length (.start w)).order
  if order.length < w.vertices.length then none else some order

end Wiring

end LayerGraph
