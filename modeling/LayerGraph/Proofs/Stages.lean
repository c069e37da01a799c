import LayerGraph.Analysis
import LayerGraph.Proofs.Graph.Structure
import LayerGraph.Proofs.Wiring.Scheduling

/-!
# How an analysis ends

An analysis ends at one of four gates: there are no nodes, the rules found defects, some node has
no shape, or nothing is wrong. It never ends for want of a schedule, since a document that passes
the rules has no cycle.
-/

namespace LayerGraph

namespace Document

variable {document : Document}

/-- A document that passes the rules can be scheduled. -/
theorem WellBuilt.scheduled (wellBuilt : document.WellBuilt) :
    ∃ order, (Graph.ofDocument document).wiring.schedule? = some order := by
  have schedulable : (Graph.ofDocument document).wiring.schedule? ≠ none := by
    rw [ne_eq, Wiring.schedule?_eq_none_iff_cyclic (Graph.wellFormed_ofDocument document)]
    exact wellBuilt.not_cyclic
  exact Option.ne_none_iff_exists'.mp schedulable

/-- The gates at which an analysis can end, and what it yields there. -/
inductive Ends (document : Document) : Analysis → Prop where
  | empty (nodes : document.nodes = []) : Ends document (.failed [.ofGraph .noNodes])
  | rejected (nodes : document.nodes ≠ []) (notWellBuilt : ¬ document.WellBuilt) :
      Ends document (.failed ((Graph.ofDocument document).diagnostics document))
  | misshapen (nodes : document.nodes ≠ []) (wellBuilt : document.WellBuilt) (order : List String)
      (scheduled : (Graph.ofDocument document).wiring.schedule? = some order)
      (failures : ((Graph.ofDocument document).inferShapes order).failures ≠ []) :
      Ends document ⟨((Graph.ofDocument document).inferShapes order).diagnostics, order,
        ((Graph.ofDocument document).inferShapes order).shapes, [], 0⟩
  | accepted (nodes : document.nodes ≠ []) (wellBuilt : document.WellBuilt) (order : List String)
      (scheduled : (Graph.ofDocument document).wiring.schedule? = some order)
      (failures : ((Graph.ofDocument document).inferShapes order).failures = []) :
      Ends document ⟨[], order, ((Graph.ofDocument document).inferShapes order).shapes,
        (Graph.ofDocument document).layerNames order, (Graph.ofDocument document).totalWeights⟩

theorem analyze_ends (document : Document) : document.Ends document.analyze := by
  by_cases nodes : document.nodes = []
  · simpa [analyze, nodes] using Ends.empty nodes
  by_cases defects : (Graph.ofDocument document).diagnostics document = []
  · have wellBuilt := (Graph.diagnostics_eq_nil_iff document).mp defects
    obtain ⟨order, scheduled⟩ := wellBuilt.scheduled
    by_cases failures : ((Graph.ofDocument document).inferShapes order).failures = []
    · simpa [analyze, nodes, defects, scheduled, failures] using
        Ends.accepted nodes wellBuilt order scheduled failures
    · simpa [analyze, nodes, defects, scheduled, failures] using
        Ends.misshapen nodes wellBuilt order scheduled failures
  · have notWellBuilt := mt (Graph.diagnostics_eq_nil_iff document).mpr defects
    simpa [analyze, nodes, defects] using Ends.rejected nodes notWellBuilt

/-- An analysis has one end. -/
theorem Ends.unique {analysis other : Analysis} (ends : document.Ends analysis)
    (again : document.Ends other) : analysis = other := by
  cases ends <;> cases again <;> simp_all

/-- The analysis of a document with which nothing is wrong. -/
theorem analyze_of_valid (valid : document.analyze.diagnostics = []) :
    document.WellBuilt ∧ ∃ order, (Graph.ofDocument document).wiring.schedule? = some order ∧
      ((Graph.ofDocument document).inferShapes order).failures = [] ∧
      document.analyze = ⟨[], order, ((Graph.ofDocument document).inferShapes order).shapes,
        (Graph.ofDocument document).layerNames order, (Graph.ofDocument document).totalWeights⟩ := by
  have ends := document.analyze_ends
  generalize document.analyze = analysis at ends valid
  cases ends with
  | empty nodes => simp [Analysis.failed] at valid
  | rejected nodes notWellBuilt =>
    exact absurd ((Graph.diagnostics_eq_nil_iff document).mp valid) notWellBuilt
  | misshapen nodes wellBuilt order scheduled failures =>
    simp [Inference.diagnostics, failures] at valid
  | accepted nodes wellBuilt order scheduled failures =>
    exact ⟨wellBuilt, order, scheduled, failures, rfl⟩

/-- Nothing is wrong exactly if there are nodes, the rules are kept and every shape is found. -/
theorem analyze_diagnostics_eq_nil_iff (document : Document) : document.analyze.diagnostics = [] ↔
    document.nodes ≠ [] ∧ document.WellBuilt ∧
      ∃ order, (Graph.ofDocument document).wiring.schedule? = some order ∧
        ((Graph.ofDocument document).inferShapes order).failures = [] := by
  have ends := document.analyze_ends
  generalize document.analyze = analysis at ends
  cases ends with
  | empty nodes => simp [Analysis.failed, nodes]
  | rejected nodes notWellBuilt =>
    simp [Analysis.failed, notWellBuilt, Graph.diagnostics_eq_nil_iff]
  | misshapen nodes wellBuilt order scheduled failures =>
    simp [Inference.diagnostics, scheduled, failures]
  | accepted nodes wellBuilt order scheduled failures =>
    simp [nodes, wellBuilt, scheduled, failures]

end Document

end LayerGraph
