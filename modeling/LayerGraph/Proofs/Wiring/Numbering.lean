import LayerGraph.Proofs.Wiring.Renaming
import LayerGraph.Proofs.Wiring.Walk

/-!
# Numbered vertices

The vertices of a wiring can be replaced by their places, as long as every vertex is listed once
and every arc joins listed vertices: the neighbors of a place are the places of the neighbors.
-/

namespace LayerGraph

inductive Direction where
  | outgoing
  | incoming

namespace Direction

variable {V : Type}

/-- The end at which an arc is listed. -/
def near : Direction → V × V → V
  | outgoing => Prod.fst
  | incoming => Prod.snd

/-- The end that is listed there. -/
def far : Direction → V × V → V
  | outgoing => Prod.snd
  | incoming => Prod.fst

end Direction

namespace Wiring

variable {V : Type} [DecidableEq V]

/-- The vertices that are joined to a vertex, once for each arc. -/
def neighbors (w : Wiring V) : Direction → V → List V
  | .outgoing => w.successors
  | .incoming => w.predecessors

def numbered (w : Wiring V) : Wiring ℕ :=
  w.map w.vertices.idxOf

def degree (w : Wiring V) : Direction → V → ℕ
  | .outgoing => w.outgoing
  | .incoming => w.incoming

theorem neighbors_eq (w : Wiring V) (direction : Direction) (v : V) :
    w.neighbors direction v =
      (w.arcs.filter fun arc => direction.near arc = v).map direction.far := by
  cases direction <;> rfl

theorem length_neighbors (w : Wiring V) (direction : Direction) (v : V) :
    (w.neighbors direction v).length = w.degree direction v := by
  cases direction with
  | outgoing => exact length_successors w v
  | incoming => exact length_predecessors w v

/-- The newest arc is listed last at both its ends. -/
theorem neighbors_concat (vertices : List V) (arcs : List (V × V)) (arc : V × V)
    (direction : Direction) (v : V) :
    (Wiring.mk vertices (arcs ++ [arc])).neighbors direction v =
      if direction.near arc = v then
        (Wiring.mk vertices arcs).neighbors direction v ++ [direction.far arc]
      else (Wiring.mk vertices arcs).neighbors direction v := by
  by_cases listed : direction.near arc = v <;> simp [neighbors_eq, listed]

omit [DecidableEq V] in
theorem WellFormed.near_mem {w : Wiring V} (wellFormed : w.WellFormed) (direction : Direction) :
    ∀ arc ∈ w.arcs, direction.near arc ∈ w.vertices := by
  intro arc member
  cases direction with
  | outgoing => exact wellFormed.source _ _ member
  | incoming => exact wellFormed.target _ _ member

omit [DecidableEq V] in
theorem WellFormed.far_mem {w : Wiring V} (wellFormed : w.WellFormed) (direction : Direction) :
    ∀ arc ∈ w.arcs, direction.far arc ∈ w.vertices := by
  intro arc member
  cases direction with
  | outgoing => exact wellFormed.target _ _ member
  | incoming => exact wellFormed.source _ _ member

theorem WellFormed.mem_of_mem_neighbors {w : Wiring V} (wellFormed : w.WellFormed)
    {direction : Direction} {u v : V} (joined : u ∈ w.neighbors direction v) :
    u ∈ w.vertices := by
  rw [neighbors_eq] at joined
  obtain ⟨arc, member, rfl⟩ := List.mem_map.mp joined
  exact wellFormed.far_mem direction arc (List.mem_filter.mp member).1

theorem WellFormed.neighbors_of_notMem {w : Wiring V} (wellFormed : w.WellFormed)
    (direction : Direction) {v : V} (outside : v ∉ w.vertices) : w.neighbors direction v = [] := by
  rw [neighbors_eq, List.map_eq_nil_iff, List.filter_eq_nil_iff]
  intro arc member listed
  rw [decide_eq_true_iff] at listed
  exact outside (listed ▸ wellFormed.near_mem direction arc member)

/-- A wiring of numbers has the neighbors of every vertex under its number. -/
theorem WellFormed.neighbors_numbered {w : Wiring V} (wellFormed : w.WellFormed)
    (direction : Direction) (v : V) :
    w.numbered.neighbors direction (w.vertices.idxOf v) =
      (w.neighbors direction v).map w.vertices.idxOf := by
  have near (arc : V × V) : direction.near (w.vertices.idxOf arc.1, w.vertices.idxOf arc.2) =
      w.vertices.idxOf (direction.near arc) := by
    cases direction <;> rfl
  have far (arc : V × V) : direction.far (w.vertices.idxOf arc.1, w.vertices.idxOf arc.2) =
      w.vertices.idxOf (direction.far arc) := by
    cases direction <;> rfl
  have same : ∀ arc ∈ w.arcs,
      decide (w.vertices.idxOf (direction.near arc) = w.vertices.idxOf v) =
        decide (direction.near arc = v) := by
    intro arc member
    rw [decide_eq_decide]
    exact List.idxOf_inj (wellFormed.near_mem direction arc member)
  simp only [neighbors_eq, numbered, map, List.filter_map, List.map_map, Function.comp_def, near,
    far]
  rw [List.filter_congr same]

end Wiring

end LayerGraph
