/-!
# Wirings

A wiring is a finite directed multigraph: its vertices and arcs in the order of their
declaration. Parallel arcs and loops are allowed.
-/

namespace LayerGraph

/-- Vertices and arcs in declaration order. -/
structure Wiring (V : Type) where
  vertices : List V
  arcs : List (V × V)
  deriving Repr

namespace Wiring

variable {V : Type} [DecidableEq V]

/-- Where the arcs out of a vertex lead, once for each arc. -/
def successors (w : Wiring V) (v : V) : List V :=
  (w.arcs.filter fun arc => arc.1 = v).map (·.2)

def predecessors (w : Wiring V) (v : V) : List V :=
  (w.arcs.filter fun arc => arc.2 = v).map (·.1)

def outgoing (w : Wiring V) (v : V) : Nat :=
  w.arcs.countP fun arc => arc.1 = v

def incoming (w : Wiring V) (v : V) : Nat :=
  w.arcs.countP fun arc => arc.2 = v

theorem length_successors (w : Wiring V) (v : V) : (w.successors v).length = w.outgoing v := by
  simp [successors, outgoing, List.countP_eq_length_filter]

theorem length_predecessors (w : Wiring V) (v : V) :
    (w.predecessors v).length = w.incoming v := by
  simp [predecessors, incoming, List.countP_eq_length_filter]

theorem mem_successors {w : Wiring V} {u v : V} : v ∈ w.successors u ↔ (u, v) ∈ w.arcs := by
  simp [successors]

theorem mem_predecessors {w : Wiring V} {u v : V} : u ∈ w.predecessors v ↔ (u, v) ∈ w.arcs := by
  simp [predecessors]

end Wiring

def assign {V α : Type} [DecidableEq V] (f : V → α) (v : V) (x : α) : V → α :=
  fun u => if u = v then x else f u

@[simp] theorem assign_self {V α : Type} [DecidableEq V] (f : V → α) (v : V) (x : α) :
    assign f v x v = x := by
  simp [assign]

theorem assign_of_ne {V α : Type} [DecidableEq V] (f : V → α) {u v : V} (x : α) (h : u ≠ v) :
    assign f v x u = f u := by
  simp [assign, h]

end LayerGraph
