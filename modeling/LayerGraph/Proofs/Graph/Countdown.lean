import LayerGraph.Proofs.Graph.Declarations
import LayerGraph.Proofs.Wiring.Countdown

/-!
# Counters of a document

Scheduling the graph of a document by counters never fails, and it ends, also where the graph has a
cycle. The places of the counters are the ranks of the declared ids.
-/

namespace LayerGraph

namespace Document

open Wiring (Countdown Scheduling)

variable (document : Document)

def links : List (ℕ × ℕ) :=
  (document.edges.filter fun edge => document.Resolves edge).map fun edge =>
    (document.rank edge.source, document.rank edge.target)

theorem numbered_arcs_ofDocument :
    (Graph.ofDocument document).wiring.numbered.arcs = document.links := by
  rw [Wiring.numbered, Wiring.map, Graph.wiring, Graph.edges_ofDocument, List.map_map, links]
  refine List.map_congr_left fun edge member => ?_
  have resolves : document.Resolves edge := by simpa using (List.mem_filter.mp member).2
  exact Prod.ext (Graph.idxOf_ids_ofDocument document resolves.1)
    (Graph.idxOf_ids_ofDocument document resolves.2)

theorem length_vertices_ofDocument :
    (Graph.ofDocument document).wiring.vertices.length = document.declaredIds.card :=
  (List.length_map _).trans (Graph.length_nodes_ofDocument document)

/-- On the graph of any document no step of scheduling by counters takes from a zero or looks for a
place that is not there. At every point each counter is the number of edges into its id that have
not been walked, no id has entered the queue twice, and no more ids have been taken from it than
there are. Between two rounds it is where `Scheduling` is after as many. After a step for every id
and every edge nothing is left to be done, and what has been emitted is the schedule, if these are
all ids. -/
theorem countdown_safe :
    let wiring := (Graph.ofDocument document).wiring
    (∀ n, ∃ point unwalked, Countdown.after wiring n = .ok point ∧
      point.Balanced document.declaredIds.card document.links unwalked ∧
      (point.left = [] →
        point.Matches wiring (Scheduling.run wiring point.order.length (.start wiring)))) ∧
    ∃ point, Countdown.after wiring (document.declaredIds.card + document.links.length) =
        .ok point ∧ point.Finished ∧
      wiring.schedule? =
        if point.order.length < document.declaredIds.card then none else some point.order := by
  intro wiring
  have wellFormed : wiring.WellFormed := Graph.wellFormed_ofDocument document
  have places : wiring.vertices.length = _ := length_vertices_ofDocument document
  have arcs : wiring.numbered.arcs = _ := numbered_arcs_ofDocument document
  constructor
  · intro n
    obtain ⟨point, unwalked, reached, balanced, between⟩ := Countdown.exists_balanced wellFormed n
    rw [places, arcs] at balanced
    exact ⟨point, unwalked, reached, balanced, between⟩
  · obtain ⟨point, reached, finished, emitted⟩ := Countdown.exists_finished wellFormed
    have steps : wiring.arcs.length = document.links.length := by
      rw [← arcs, Wiring.numbered, Wiring.map, List.length_map]
    rw [places, steps] at reached
    refine ⟨point, reached, finished, ?_⟩
    rw [emitted, ← places]
    rfl

/-- Behind an input, a loop that two parallel edges lead to. -/
example :
    let document : Document := ⟨[.ofKind "image" .input .empty, .ofKind "sum" .add .empty],
      [⟨"image", "sum"⟩, ⟨"sum", "sum"⟩, ⟨"image", "sum"⟩]⟩
    Countdown.after (Graph.ofDocument document).wiring 5 =
      .ok ⟨[0, 1], [], ["image"], [], [(0, 1), (0, 1)], [0]⟩ := by
  decide

end Document

end LayerGraph
