import LayerGraph.Proofs.Stages

/-!
# Schedules of documents

The search for cycles and the scheduler give the same verdict on every document, and a schedule
puts every declared id behind the sources of all edges into it.
-/

namespace LayerGraph

namespace Graph

/-- The search finds a cycle in exactly those documents that the scheduler cannot order. -/
theorem hasCycle_iff_schedule?_eq_none (document : Document) :
    (ofDocument document).wiring.hasCycle = true ↔
      (ofDocument document).wiring.schedule? = none := by
  have wellFormed := wellFormed_ofDocument document
  rw [Wiring.hasCycle_iff_cyclic wellFormed, Wiring.schedule?_eq_none_iff_cyclic wellFormed]

theorem topologicalOrder_of_schedule? {document : Document} {order : List String}
    (scheduled : (ofDocument document).wiring.schedule? = some order) :
    (ofDocument document).wiring.TopologicalOrder order :=
  Wiring.topologicalOrder_of_schedule? (wellFormed_ofDocument document) scheduled

section TopologicalOrder

variable {document : Document} {order : List String}
  (topological : (ofDocument document).wiring.TopologicalOrder order)

include topological

theorem mem_order_iff {id : String} : id ∈ order ↔ document.Declares id :=
  (topological.complete id).trans (mem_ids_ofDocument document id)

theorem idxOf_lt_of_connects {u v : String} (connects : document.Connects u v) :
    order.idxOf u < order.idxOf v :=
  topological.forward u v ((leads_ofDocument document u v).mpr connects)

theorem idxOf_lt_of_resolves {edge : Edge} (member : edge ∈ document.edges)
    (resolves : document.Resolves edge) : order.idxOf edge.source < order.idxOf edge.target :=
  idxOf_lt_of_connects topological ⟨edge, member, rfl, rfl, resolves⟩

end TopologicalOrder

end Graph

namespace Document

/-- The order that a valid document is given. -/
theorem schedule?_of_valid {document : Document} (valid : document.analyze.diagnostics = []) :
    document.WellBuilt ∧
      (Graph.ofDocument document).wiring.schedule? = some document.analyze.order := by
  obtain ⟨wellBuilt, order, scheduled, _, analysis⟩ := analyze_of_valid valid
  rw [analysis]
  exact ⟨wellBuilt, scheduled⟩

/-- A schedule lists the declared ids once each, and every edge that counts leads forward. The
order of a valid document lists the ids of all its nodes, among them both ends of every edge, the
source before the target. -/
theorem schedule_sound (document : Document) :
    (∀ order, (Graph.ofDocument document).wiring.schedule? = some order →
      order.Nodup ∧ (∀ id, id ∈ order ↔ document.Declares id) ∧
      ∀ edge ∈ document.edges, document.Resolves edge →
        order.idxOf edge.source < order.idxOf edge.target) ∧
    (document.analyze.diagnostics = [] →
      document.analyze.order.Perm (document.nodes.map (·.id)) ∧
      ∀ edge ∈ document.edges,
        edge.source ∈ document.analyze.order ∧ edge.target ∈ document.analyze.order ∧
        document.analyze.order.idxOf edge.source < document.analyze.order.idxOf edge.target) := by
  constructor
  · intro order scheduled
    have topological := Graph.topologicalOrder_of_schedule? scheduled
    refine ⟨topological.distinct, fun id => ?_, fun edge member resolves => ?_⟩
    · exact Graph.mem_order_iff topological
    · exact Graph.idxOf_lt_of_resolves topological member resolves
  · intro valid
    obtain ⟨wellBuilt, scheduled⟩ := schedule?_of_valid valid
    have topological := Graph.topologicalOrder_of_schedule? scheduled
    refine ⟨?_, fun edge member => ?_⟩
    · rw [← wellBuilt.nodes_ofDocument]
      exact topological.perm (Graph.wellFormed_ofDocument document)
    · have resolves := wellBuilt.resolves edge member
      have source := (Graph.mem_order_iff topological).mpr resolves.1
      have target := (Graph.mem_order_iff topological).mpr resolves.2
      exact ⟨source, target, Graph.idxOf_lt_of_resolves topological member resolves⟩

/-- An input that feeds two layers, each declared before what feeds it. -/
def branching : Document where
  nodes := [
    .ofKind "sum" .add .empty,
    .ofKind "left" .relu .empty,
    .ofKind "image" .input ⟨[("shape", .array [.number (.unsigned 1), .number (.unsigned 8)])]⟩]
  edges := [⟨"image", "left"⟩, ⟨"image", "sum"⟩, ⟨"left", "sum"⟩]

theorem schedule_sound_branching :
    (["image", "left", "sum"].Nodup ∧
      (∀ id, id ∈ ["image", "left", "sum"] ↔ branching.Declares id) ∧
      ∀ edge ∈ branching.edges, branching.Resolves edge →
        ["image", "left", "sum"].idxOf edge.source < ["image", "left", "sum"].idxOf edge.target) ∧
    branching.analyze.order.Perm (branching.nodes.map (·.id)) ∧
    ∀ edge ∈ branching.edges,
      edge.source ∈ branching.analyze.order ∧ edge.target ∈ branching.analyze.order ∧
      branching.analyze.order.idxOf edge.source < branching.analyze.order.idxOf edge.target :=
  ⟨(schedule_sound branching).1 _ (by decide +kernel),
    (schedule_sound branching).2 (by decide +kernel)⟩

end Document

end LayerGraph
