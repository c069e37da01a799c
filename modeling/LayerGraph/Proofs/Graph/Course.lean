import LayerGraph.Proofs.Graph.Countdown
import LayerGraph.Proofs.Wiring.Course

/-!
# The search on the graph of a document

The search for cycles keeps its marks in agreement with the edges of the document, whatever the
document is, and it looks at every edge and leaves every id once at most.
-/

namespace LayerGraph

namespace Document

open Wiring (Search)

variable (document : Document)

def targets (id : String) : List String :=
  (document.edges.filter fun edge => edge.source = id ∧ document.Resolves edge).map (·.target)

theorem successors_ofDocument_eq_targets :
    (Graph.ofDocument document).wiring.successors = document.targets :=
  funext (Graph.successors_ofDocument document)

theorem length_arcs_ofDocument :
    (Graph.ofDocument document).wiring.arcs.length = document.links.length := by
  rw [← numbered_arcs_ofDocument, Wiring.numbered, Wiring.map, List.length_map]

/-- In every state of the search, the marked path and the arcs looked at are as the marks say. No id
is put on the path twice, and the rounds made on a path are no more than the edges and ids, and
as many if there is no cycle. The last step gives the answer. -/
theorem search_keeps_colours :
    let wiring := (Graph.ofDocument document).wiring
    let states := Search.course wiring
    let work := document.links.length + document.declaredIds.card
    (∀ s ∈ states, s.Coloured document.targets) ∧
    (Search.pushes wiring states).Nodup ∧
    Search.rounds states ≤ work ∧
    (wiring.hasCycle = false → Search.rounds states = work) ∧
    ∃ last, states.getLast? = some last ∧
      last.step wiring = if wiring.hasCycle then .cyclic else .acyclic := by
  intro wiring states work
  have wellFormed : wiring.WellFormed := Graph.wellFormed_ofDocument document
  have size : wiring.arcs.length + wiring.vertices.length = work := by
    rw [length_arcs_ofDocument, length_vertices_ofDocument]
  rw [← successors_ofDocument_eq_targets, ← size]
  obtain ⟨last, ends, answer, _⟩ := Search.exists_last_course wellFormed
  exact ⟨fun s member => Search.coloured_of_mem_course wellFormed member,
    (Search.nodup_pushes _ _).1, Search.rounds_course_le wellFormed,
    Search.rounds_course_eq wellFormed, last, ends, answer⟩

/-- Two branches that meet, one of them twice, and an edge that leads nowhere. -/
def meeting : Document where
  nodes := [.ofKind "image" .input .empty, .ofKind "left" .relu .empty,
    .ofKind "right" .relu .empty, .ofKind "sum" .add .empty, .ofKind "left" .add .empty]
  edges := [⟨"image", "left"⟩, ⟨"image", "right"⟩, ⟨"right", "sum"⟩, ⟨"sum", "lost"⟩,
    ⟨"left", "sum"⟩, ⟨"right", "sum"⟩]

theorem search_keeps_colours_meeting :
    let wiring := (Graph.ofDocument meeting).wiring
    let states := Search.course wiring
    (∃ s ∈ states, (s.path = [("right", ["sum"]), ("image", ["left"])] ∧ s.mark "sum" = .done) ∧
      s.Coloured meeting.targets) ∧
    (Search.pushes wiring states = ["image", "right", "sum", "left"] ∧
      (Search.pushes wiring states).Nodup) ∧
    (wiring.hasCycle = false ∧ Search.rounds states = 5 + 4) ∧
    ∃ last, states.getLast? = some last ∧ last.step wiring = .acyclic := by
  intro wiring states
  obtain ⟨coloured, once, _, work, answer⟩ := search_keeps_colours meeting
  have acyclic : wiring.hasCycle = false := by decide
  have inside : 4 < states.length := by decide
  refine ⟨⟨states.get ⟨4, inside⟩, List.get_mem .., ⟨rfl, rfl⟩, coloured _ (List.get_mem ..)⟩,
    ⟨by decide, once⟩, ⟨acyclic, work acyclic⟩, ?_⟩
  simpa [acyclic, wiring] using answer

end Document

end LayerGraph
