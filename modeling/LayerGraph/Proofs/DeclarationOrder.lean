import LayerGraph.Proofs.Document.Reordering
import LayerGraph.Proofs.Graph.AnyOrder
import LayerGraph.Proofs.Graph.LayerName
import LayerGraph.Proofs.Number.Word

/-!
# The order of declarations

An analysis says the same of a document in whatever order its nodes and edges are declared, except
that edges into one node must keep their order. Only the order of what is listed may change, and
which node of a kind gets which number.
-/

namespace LayerGraph

/-- Two analyses that say the same, up to the order in which they list it. -/
structure Analysis.Alike (analysis other : Analysis) : Prop where
  diagnostics : analysis.diagnostics.Perm other.diagnostics
  order : analysis.order.Perm other.order
  shapes : analysis.shapes = other.shapes
  totalWeights : analysis.totalWeights = other.totalWeights
  layerNames : ∀ kind,
    (analysis.layerNames.filter fun name => name.kind = kind).map LayerName.text =
      (other.layerNames.filter fun name => name.kind = kind).map LayerName.text

theorem Analysis.Alike.isValid_eq {analysis other : Analysis} (alike : analysis.Alike other) :
    analysis.isValid = other.isValid :=
  alike.diagnostics.isEmpty_eq

theorem Analysis.alike_failed {diagnostics other : List Diagnostic}
    (perm : diagnostics.Perm other) : (failed diagnostics).Alike (failed other) :=
  ⟨perm, .refl _, rfl, rfl, fun _ => rfl⟩

namespace Document

variable {document other : Document} {order order' : List String}

namespace Reordering

variable (reordering : Reordering document other) (distinct : document.DistinctIds)
  (topological : (Graph.ofDocument document).wiring.TopologicalOrder order)
  (topological' : (Graph.ofDocument other).wiring.TopologicalOrder order')

include reordering distinct

theorem totalWeights_eq :
    (Graph.ofDocument document).totalWeights = (Graph.ofDocument other).totalWeights :=
  ((reordering.nodes_ofDocument_perm distinct).filterMap _).foldl_eq 0

include topological topological'

theorem order_perm : order.Perm order' := by
  have vertices := topological.perm (Graph.wellFormed_ofDocument document)
  have vertices' := topological'.perm (Graph.wellFormed_ofDocument other)
  have ids := (reordering.nodes_ofDocument_perm distinct).map (·.id)
  exact vertices.trans (ids.trans vertices'.symm)

theorem shapes_eq : ((Graph.ofDocument document).inferShapes order).shapes =
    ((Graph.ofDocument other).inferShapes order').shapes :=
  Inference.shapes_eq_of_yields_iff topological topological' (reordering.yields_iff distinct)

theorem failures_perm : ((Graph.ofDocument document).inferShapes order).failures.Perm
    ((Graph.ofDocument other).inferShapes order').failures :=
  Inference.failures_perm_of_yields_iff topological topological' (reordering.yields_iff distinct)
    (reordering.order_perm distinct topological topological')

theorem layerTexts_eq (kind : Kind) :
    (((Graph.ofDocument document).layerNames order).filter fun name => name.kind = kind).map
        LayerName.text =
      (((Graph.ofDocument other).layerNames order').filter fun name => name.kind = kind).map
        LayerName.text := by
  have kinds : (Graph.ofDocument document).kind? = (Graph.ofDocument other).kind? := by
    funext id
    rw [Graph.kind?, Graph.kind?, reordering.node?_ofDocument distinct]
  have layers : (Graph.ofDocument document).layers kind order =
      (Graph.ofDocument other).layers kind order' := by
    rw [Graph.layers, Graph.layers, kinds]
    exact (reordering.order_perm distinct topological topological').countP_eq _
  rw [Graph.texts_layerNames, Graph.texts_layerNames, layers]

end Reordering

/-- Documents without repeated ids that differ only in the order of their nodes, and of edges into
different nodes, are equally valid and have analyses that say the same. -/
theorem analyze_alike (reordering : Reordering document other) (distinct : document.DistinctIds) :
    document.analyze.isValid = other.analyze.isValid ∧
      document.analyze.Alike other.analyze := by
  have alike : document.analyze.Alike other.analyze := by
    by_cases nodes : document.nodes = []
    · have nodes' : other.nodes = [] := (nodes ▸ reordering.nodes).nil_eq.symm
      rw [document.analyze_ends.unique (.empty nodes), other.analyze_ends.unique (.empty nodes')]
      exact Analysis.alike_failed (.refl _)
    have nodes' : other.nodes ≠ [] :=
      fun empty => nodes (empty ▸ reordering.symm.nodes).nil_eq.symm
    by_cases wellBuilt : document.WellBuilt
    · have wellBuilt' := (reordering.wellBuilt_iff distinct).mp wellBuilt
      obtain ⟨order, scheduled⟩ := wellBuilt.scheduled
      obtain ⟨order', scheduled'⟩ := wellBuilt'.scheduled
      have topological := Graph.topologicalOrder_of_schedule? scheduled
      have topological' := Graph.topologicalOrder_of_schedule? scheduled'
      have orders := reordering.order_perm distinct topological topological'
      have shapes := reordering.shapes_eq distinct topological topological'
      have failed := reordering.failures_perm distinct topological topological'
      by_cases failures : ((Graph.ofDocument document).inferShapes order).failures = []
      · have failures' := (failures ▸ failed).nil_eq.symm
        rw [document.analyze_ends.unique (.accepted nodes wellBuilt order scheduled failures),
          other.analyze_ends.unique (.accepted nodes' wellBuilt' order' scheduled' failures')]
        exact ⟨.refl _, orders, shapes, reordering.totalWeights_eq distinct,
          reordering.layerTexts_eq distinct topological topological'⟩
      · have failures' : ((Graph.ofDocument other).inferShapes order').failures ≠ [] :=
          fun none => failures (none ▸ failed.symm).nil_eq.symm
        rw [document.analyze_ends.unique (.misshapen nodes wellBuilt order scheduled failures),
          other.analyze_ends.unique (.misshapen nodes' wellBuilt' order' scheduled' failures')]
        exact ⟨failed.map _, orders, shapes, rfl, fun _ => rfl⟩
    · have notWellBuilt' := mt (reordering.wellBuilt_iff distinct).mpr wellBuilt
      rw [document.analyze_ends.unique (.rejected nodes wellBuilt),
        other.analyze_ends.unique (.rejected nodes' notWellBuilt')]
      exact Analysis.alike_failed (reordering.diagnostics_perm distinct)
  exact ⟨alike.isValid_eq, alike⟩

def twoHeads (first second : Node) (edges : List Edge) : Document :=
  ⟨[.ofKind "sum" .add .empty, first, second,
    .ofKind "image" .input ⟨[("shape", .array [.number (.unsigned 1), .number (.unsigned 4)])]⟩],
    edges⟩

def head (id : String) (features : UInt64) : Node :=
  .ofKind id .linear
    ⟨[("in_features", .number (.unsigned 4)), ("out_features", .number (.unsigned features))]⟩

/-- The layers change places, and so do their numbers. -/
theorem analyze_alike_twoHeads :
    let document := twoHeads (head "left" 2) (head "right" 3)
      [⟨"image", "left"⟩, ⟨"left", "sum"⟩, ⟨"image", "right"⟩, ⟨"right", "sum"⟩]
    let other := twoHeads (head "right" 3) (head "left" 2)
      [⟨"image", "right"⟩, ⟨"left", "sum"⟩, ⟨"right", "sum"⟩, ⟨"image", "left"⟩]
    Reordering document other ∧ document.DistinctIds ∧
      document.analyze.isValid = other.analyze.isValid ∧
      document.analyze.Alike other.analyze := by
  intro document other
  have reordering : Reordering document other := by
    refine ⟨.cons _ (.swap ..), fun id => ?_⟩
    by_cases left : "left" = id
    · subst left
      decide
    by_cases right : "right" = id
    · subst right
      decide
    simp [document, other, twoHeads, List.filter_cons, left, right]
  have distinct : document.DistinctIds := by
    unfold DistinctIds
    decide
  exact ⟨reordering, distinct, analyze_alike reordering distinct⟩

end Document

end LayerGraph
