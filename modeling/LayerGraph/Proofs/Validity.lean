import LayerGraph.Proofs.Graph.Inference

/-!
# Valid documents

What the analysis accepts, stated on the nodes and edges of a document as they are declared. The
graph of first declarations, the search, the schedule and the recorded shapes do not occur in it.
-/

namespace LayerGraph

namespace Document

/-- A document is valid if it has nodes, is well built, and no node fails to make a shape of the
operands that can be derived for it. -/
structure Valid (document : Document) : Prop extends document.WellBuilt where
  nonempty : document.nodes ≠ []
  shaped : ∀ id error, ¬ document.Yields id (.error error)

/-- The analysis finds nothing wrong exactly with valid documents. -/
theorem analyze_accepts_iff (document : Document) :
    document.analyze.diagnostics = [] ↔ document.Valid := by
  rw [analyze_diagnostics_eq_nil_iff]
  constructor
  · rintro ⟨nonempty, wellBuilt, order, scheduled, failures⟩
    have topological := Graph.topologicalOrder_of_schedule? scheduled
    exact ⟨wellBuilt, nonempty, (Inference.failures_eq_nil_iff topological).mp failures⟩
  · intro valid
    obtain ⟨order, scheduled⟩ := valid.toWellBuilt.scheduled
    have topological := Graph.topologicalOrder_of_schedule? scheduled
    exact ⟨valid.nonempty, valid.toWellBuilt, order, scheduled,
      (Inference.failures_eq_nil_iff topological).mpr valid.shaped⟩

end Document

end LayerGraph
