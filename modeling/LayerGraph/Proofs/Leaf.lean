import LayerGraph.Proofs.Graph.LayerName
import LayerGraph.Proofs.Graph.Shapes
import LayerGraph.Proofs.Weights
import LayerGraph.Proofs.Wiring.Leaf

/-!
# Documents without a leaf

A leaf is a node that feeds no other one. No other node looks at it, so taking it out of a valid
document, with the edges into it, leaves a valid document. The analysis of that is the same but for
the leaf, its weights, and the numbers of the layers of its kind behind it.
-/

namespace LayerGraph

namespace Document

/-- A node of the document that is no input and from which no edge leads on. -/
structure Leaf (document : Document) (leaf : Node) : Prop where
  member : leaf ∈ document.nodes
  inner : leaf.kind? ≠ some .input
  last : ∀ edge ∈ document.edges, edge.source ≠ leaf.id

/-- What an edge leads from is not the leaf. -/
theorem Leaf.source_ne {document : Document} {leaf : Node} (isLeaf : document.Leaf leaf)
    {u v : String} (connects : document.Connects u v) : u ≠ leaf.id := by
  obtain ⟨edge, member, rfl, _⟩ := connects
  exact isLeaf.last edge member

/-- The document without the nodes of an id and the edges into them. -/
def without (document : Document) (id : String) : Document :=
  ⟨document.nodes.filter fun node => node.id ≠ id,
    document.edges.filter fun edge => edge.target ≠ id⟩

theorem mem_nodes_without {document : Document} {id : String} {node : Node} :
    node ∈ (document.without id).nodes ↔ node ∈ document.nodes ∧ node.id ≠ id := by
  simp [without]

theorem mem_edges_without {document : Document} {id : String} {edge : Edge} :
    edge ∈ (document.without id).edges ↔ edge ∈ document.edges ∧ edge.target ≠ id := by
  simp [without]

namespace WellBuilt

variable {document : Document} (wellBuilt : document.WellBuilt)

include wellBuilt

theorem wiring_ofDocument : (Graph.ofDocument document).wiring =
    ⟨document.nodes.map (·.id), document.edges.map fun edge => (edge.source, edge.target)⟩ := by
  have edges : (Graph.ofDocument document).edges = document.edges := by
    rw [Graph.edges_ofDocument, List.filter_eq_self]
    simpa using wellBuilt.resolves
  rw [Graph.wiring, Graph.ids, wellBuilt.nodes_ofDocument, edges]

end WellBuilt

section Without

variable {document : Document} {leaf : Node} (wellBuilt : document.WellBuilt)
  (isLeaf : document.Leaf leaf)

include wellBuilt isLeaf

/-- The leaf is the only node of its id. -/
theorem WellBuilt.exists_split : ∃ before after, document.nodes = before ++ leaf :: after ∧
    (document.without leaf.id).nodes = before ++ after := by
  obtain ⟨before, after, split⟩ := List.append_of_mem isLeaf.member
  have distinct := wellBuilt.distinct
  rw [split] at distinct
  refine ⟨before, after, split, ?_⟩
  rw [without, split]
  exact filter_key_ne distinct

theorem WellBuilt.without : (document.without leaf.id).WellBuilt := by
  have ids {id : String} (listed : id ∈ document.nodes.map (·.id)) (apart : id ≠ leaf.id) :
      id ∈ (document.without leaf.id).nodes.map (·.id) := by
    obtain ⟨node, member, rfl⟩ := List.mem_map.mp listed
    exact List.mem_map.mpr ⟨node, mem_nodes_without.mpr ⟨member, apart⟩, rfl⟩
  refine ⟨?_, ?_, ?_, ?_, ?_, ?_⟩
  · intro node member
    exact wellBuilt.configured node (mem_nodes_without.mp member).1
  · have oneInput := wellBuilt.oneInput
    obtain ⟨before, after, split, left⟩ := wellBuilt.exists_split isLeaf
    have inner : leaf.isInput = false := by simp [Node.isInput, isLeaf.inner]
    rw [split, List.countP_append, List.countP_cons_of_neg (by simp [inner])] at oneInput
    rw [left, List.countP_append, oneInput]
  · exact wellBuilt.distinct.sublist (List.filter_sublist.map _)
  · intro edge member
    obtain ⟨member, apart⟩ := mem_edges_without.mp member
    obtain ⟨source, target⟩ := wellBuilt.joined edge member
    exact ⟨ids source (isLeaf.last edge member), ids target apart⟩
  · intro node member kind expected known fixed
    obtain ⟨member, apart⟩ := mem_nodes_without.mp member
    rw [← wellBuilt.arity node member kind expected known fixed, Document.without,
      List.countP_filter]
    refine List.countP_congr fun edge _ => ?_
    simp only [ne_eq, Bool.and_eq_true, decide_eq_true_eq]
    exact and_iff_left_of_imp fun target => target ▸ apart
  · intro id walk
    have fewer (u v : String) : (document.without leaf.id).HasEdge u v → document.HasEdge u v := by
      rintro ⟨edge, member, ends⟩
      exact ⟨edge, (mem_edges_without.mp member).1, ends⟩
    exact wellBuilt.acyclic id (Relation.TransGen.mono fewer _ _ walk)

theorem WellBuilt.wiring_without : (Graph.ofDocument (document.without leaf.id)).wiring =
    (Graph.ofDocument document).wiring.without leaf.id := by
  rw [(wellBuilt.without isLeaf).wiring_ofDocument, wellBuilt.wiring_ofDocument]
  simp only [Document.without, Wiring.without, List.filter_map, Function.comp_def]

omit wellBuilt in
theorem Leaf.leaf_wiring : (Graph.ofDocument document).wiring.Leaf leaf.id :=
  fun id arc => isLeaf.source_ne ((Graph.leads_ofDocument document _ id).mp arc) rfl

omit wellBuilt isLeaf in
theorem declaration?_without {id : String} (apart : id ≠ leaf.id) :
    (document.without leaf.id).declaration? id = document.declaration? id := by
  rw [declaration?, declaration?, without]
  dsimp only
  rw [find?_filter_key_ne apart]

theorem WellBuilt.firstSource?_without {id : String} (apart : id ≠ leaf.id) :
    (document.without leaf.id).firstSource? id = document.firstSource? id := by
  rw [← Graph.head?_predecessors_ofDocument, ← Graph.head?_predecessors_ofDocument,
    wellBuilt.wiring_without isLeaf, Wiring.predecessors_without _ apart]

theorem WellBuilt.yields_without {id : String} (apart : id ≠ leaf.id)
    {result : Except ShapeError Shape} (yields : document.Yields id result) :
    (document.without leaf.id).Yields id result := by
  induction yields with
  | input declared known transfer =>
    exact .input ((declaration?_without apart).trans declared) known transfer
  | layer declared known inner first _ transfer ih =>
    exact .layer ((declaration?_without apart).trans declared) known inner
      ((wellBuilt.firstSource?_without isLeaf apart).trans first)
      (ih (isLeaf.source_ne (connects_of_firstSource? first))) transfer

theorem WellBuilt.yields_of_without {id : String} {result : Except ShapeError Shape}
    (yields : (document.without leaf.id).Yields id result) :
    id ≠ leaf.id ∧ document.Yields id result := by
  induction yields with
  | @input id node result declared known transfer =>
    obtain ⟨member, rfl⟩ := declaration?_mem declared
    have apart := (mem_nodes_without.mp member).2
    exact ⟨apart, .input ((declaration?_without apart).symm.trans declared) known transfer⟩
  | @layer id source node kind operand result declared known inner first _ transfer ih =>
    obtain ⟨member, rfl⟩ := declaration?_mem declared
    have apart := (mem_nodes_without.mp member).2
    exact ⟨apart, .layer ((declaration?_without apart).symm.trans declared) known inner
      ((wellBuilt.firstSource?_without isLeaf apart).symm.trans first) ih.2 transfer⟩

omit wellBuilt isLeaf in
theorem kind?_without {id : String} (apart : id ≠ leaf.id) :
    (Graph.ofDocument document).kind? id =
      (Graph.ofDocument (document.without leaf.id)).kind? id := by
  rw [Graph.kind?, Graph.kind?, Graph.node?_ofDocument, Graph.node?_ofDocument,
    declaration?_without apart]

theorem WellBuilt.totalWeights_without : ∃ kind, leaf.kind? = some kind ∧
    (Graph.ofDocument document).totalWeights =
      Word.addClipped (Graph.ofDocument (document.without leaf.id)).totalWeights
        (kind.weightCount leaf.params) := by
  obtain ⟨kind, known⟩ := wellBuilt.exists_kind isLeaf.member
  obtain ⟨before, after, split, left⟩ := wellBuilt.exists_split isLeaf
  have weights : leaf.weights = kind.weights leaf.params := by
    rw [Node.weights, known]
  have moved : (document.nodes.map Node.weights).sum =
      ((document.without leaf.id).nodes.map Node.weights).sum + kind.weights leaf.params := by
    rw [split, left, (List.perm_middle.map Node.weights).sum_eq, List.map_cons, List.sum_cons,
      weights, Nat.add_comm]
  refine ⟨kind, known, ?_⟩
  rw [Graph.totalWeights_eq_clip, Graph.totalWeights_eq_clip, wellBuilt.nodes_ofDocument,
    (wellBuilt.without isLeaf).nodes_ofDocument, moved, Kind.weightCount_eq_clip,
    Word.addClipped_clip]

variable {order order' : List String}
  (topological : (Graph.ofDocument document).wiring.TopologicalOrder order)
  (topological' : (Graph.ofDocument (document.without leaf.id)).wiring.TopologicalOrder order')

include topological topological'

theorem WellBuilt.shapes_without :
    ((Graph.ofDocument (document.without leaf.id)).inferShapes order').shapes =
      ((Graph.ofDocument document).inferShapes order).shapes.filter
        fun entry => entry.1 ≠ leaf.id := by
  refine (Graph.inferShapes_sorted _ _).ext ((Graph.inferShapes_sorted _ _).filter _) fun id => ?_
  refine Option.ext fun shape => ?_
  rw [Table.get?_filter_ne, Inference.shapes_iff_yields topological']
  by_cases here : id = leaf.id
  · rw [if_pos here]
    refine iff_of_false (fun yields => ?_) (by simp)
    exact (wellBuilt.yields_of_without isLeaf yields).1 here
  · rw [if_neg here, Inference.shapes_iff_yields topological]
    exact ⟨fun yields => (wellBuilt.yields_of_without isLeaf yields).2,
      wellBuilt.yields_without isLeaf here⟩

theorem WellBuilt.failures_without
    (failures : ((Graph.ofDocument document).inferShapes order).failures = []) :
    ((Graph.ofDocument (document.without leaf.id)).inferShapes order').failures = [] := by
  rw [Inference.failures_eq_nil_iff topological] at failures
  rw [Inference.failures_eq_nil_iff topological']
  intro id error yields
  exact failures id error (wellBuilt.yields_of_without isLeaf yields).2

end Without

end Document

/-- Behind an element stand those of the second part of a list that it splits. -/
theorem idxOf_lt_idxOf_iff {α : Type} [DecidableEq α] {before after : List α} {x y : α}
    (distinct : (before ++ x :: after).Nodup) (listed : y ∈ before ++ after) :
    (before ++ x :: after).idxOf x < (before ++ x :: after).idxOf y ↔ y ∈ after := by
  obtain ⟨_, tail, disjoint⟩ := List.nodup_append.mp distinct
  rw [(Wiring.idxOf_middle distinct).2]
  by_cases early : y ∈ before
  · rw [List.idxOf_append_of_mem early]
    refine iff_of_false (Nat.not_lt.mpr (List.idxOf_lt_length_of_mem early).le) fun late => ?_
    exact disjoint y early y (List.mem_cons_of_mem _ late) rfl
  · have late : y ∈ after := (List.mem_append.mp listed).resolve_left early
    have apart : x ≠ y := fun same => (List.nodup_cons.mp tail).1 (same ▸ late)
    rw [List.idxOf_append_of_notMem early, List.idxOf_cons_ne _ apart]
    exact iff_of_true (by omega) late

namespace Document

variable {document : Document} {leaf : Node}

theorem WellBuilt.layerNames_without (wellBuilt : document.WellBuilt)
    (isLeaf : document.Leaf leaf) {order : List String}
    (topological : (Graph.ofDocument document).wiring.TopologicalOrder order) :
    (((Graph.ofDocument document).layerNames order).filter fun name => name.nodeId ≠ leaf.id) =
      ((Graph.ofDocument (document.without leaf.id)).layerNames
        (order.filter fun id => id ≠ leaf.id)).map fun name =>
          if leaf.kind? = some name.kind ∧ order.idxOf leaf.id < order.idxOf name.nodeId
          then name.raised else name := by
  have kind : (Graph.ofDocument document).kind? leaf.id = leaf.kind? := by
    rw [Graph.kind?, Graph.node?_ofDocument, wellBuilt.declaration?_of_mem isLeaf.member]
    rfl
  have listed : leaf.id ∈ order := by
    rw [topological.complete, wellBuilt.wiring_ofDocument]
    exact List.mem_map_of_mem isLeaf.member
  obtain ⟨before, after, rfl⟩ := List.append_of_mem listed
  have distinct := topological.distinct
  have named : ((before ++ leaf.id :: after).map id).Nodup := by rwa [List.map_id]
  have others : (before ++ leaf.id :: after).filter (fun id => id ≠ leaf.id) = before ++ after :=
    filter_key_ne named
  rw [others, Graph.layerNames, Graph.layerNames, Graph.filter_layerNamesAfter
    (fun id apart => kind?_without apart) distinct []]
  refine List.map_congr_left fun name member => ?_
  simp only [kind, idxOf_lt_idxOf_iff distinct (Graph.mem_layerNamesAfter member).1]

/-- Without a leaf, a valid document is valid, and its analysis is the same but for the leaf. The
other nodes keep their order and their shapes. Their layers keep their names, except that those of
the kind of the leaf behind it were one number higher. The weights of the leaf are what the total
lacks, up to the greatest word. -/
theorem analyze_without (document : Document) (valid : document.analyze.diagnostics = [])
    {leaf : Node} (isLeaf : document.Leaf leaf) :
    (document.without leaf.id).analyze.diagnostics = [] ∧
    (document.without leaf.id).analyze.order =
      document.analyze.order.filter (fun id => id ≠ leaf.id) ∧
    (document.without leaf.id).analyze.shapes =
      document.analyze.shapes.filter (fun entry => entry.1 ≠ leaf.id) ∧
    (document.analyze.layerNames.filter fun name => name.nodeId ≠ leaf.id) =
      (document.without leaf.id).analyze.layerNames.map (fun name =>
        if leaf.kind? = some name.kind ∧
          document.analyze.order.idxOf leaf.id < document.analyze.order.idxOf name.nodeId
        then name.raised else name) ∧
    ∃ kind, leaf.kind? = some kind ∧ document.analyze.totalWeights.toNat =
      min (2 ^ 64 - 1) ((document.without leaf.id).analyze.totalWeights.toNat +
        (kind.weightCount leaf.params).toNat) := by
  obtain ⟨wellBuilt, order, scheduled, failures, analysis⟩ := analyze_of_valid valid
  have wellFormed := Graph.wellFormed_ofDocument document
  have topological := Graph.topologicalOrder_of_schedule? scheduled
  have scheduled' : (Graph.ofDocument (document.without leaf.id)).wiring.schedule? =
      some (order.filter fun id => id ≠ leaf.id) := by
    rw [wellBuilt.wiring_without isLeaf]
    exact Wiring.schedule?_without wellFormed isLeaf.leaf_wiring scheduled
  have topological' := Graph.topologicalOrder_of_schedule? scheduled'
  have failures' := wellBuilt.failures_without isLeaf topological topological' failures
  have wellBuilt' := wellBuilt.without isLeaf
  have nodes' : (document.without leaf.id).nodes ≠ [] := by
    intro none
    have oneInput := wellBuilt'.oneInput
    simp [none] at oneInput
  have analysis' := (document.without leaf.id).analyze_ends.unique
    (.accepted nodes' wellBuilt' _ scheduled' failures')
  rw [analysis, analysis']
  refine ⟨rfl, rfl, ?_, ?_, ?_⟩
  · exact wellBuilt.shapes_without isLeaf topological topological'
  · exact wellBuilt.layerNames_without isLeaf topological
  · obtain ⟨kind, known, total⟩ := wellBuilt.totalWeights_without isLeaf
    refine ⟨kind, known, ?_⟩
    rw [total, Word.toNat_addClipped, Nat.min_comm]
    rfl

/-- Two linear layers behind an input. One of them feeds a sum twice, the other one feeds nothing. -/
def forked : Document where
  nodes := [
    .ofKind "sum" .add .empty,
    .ofKind "spare" .linear ⟨[("in_features", .word 4), ("out_features", .word 2)]⟩,
    .ofKind "image" .input ⟨[("shape", .array [.word 1, .word 4])]⟩,
    .ofKind "kept" .linear ⟨[("in_features", .word 4), ("out_features", .word 3)]⟩]
  edges := [⟨"kept", "sum"⟩, ⟨"image", "spare"⟩, ⟨"image", "kept"⟩, ⟨"kept", "sum"⟩]

/-- The layer that is left was the second linear one and becomes the first. -/
theorem analyze_without_forked :
    forked.analyze.diagnostics = [] ∧ forked.Leaf forked.nodes[1] ∧
    (forked.without "spare").analyze.diagnostics = [] ∧
    (forked.without "spare").analyze.order =
      forked.analyze.order.filter (fun id => id ≠ "spare") ∧
    (forked.without "spare").analyze.shapes =
      forked.analyze.shapes.filter (fun entry => entry.1 ≠ "spare") ∧
    [LayerName.mk "kept" .linear 2, ⟨"sum", .add, 1⟩] =
      (forked.without "spare").analyze.layerNames.map (fun name =>
        if forked.nodes[1].kind? = some name.kind ∧
          forked.analyze.order.idxOf "spare" < forked.analyze.order.idxOf name.nodeId
        then name.raised else name) ∧
    forked.analyze.totalWeights.toNat =
      min (2 ^ 64 - 1) ((forked.without "spare").analyze.totalWeights.toNat + 10) := by
  have valid : forked.analyze.diagnostics = [] := by decide +kernel
  have leaf : forked.Leaf forked.nodes[1] :=
    ⟨List.getElem_mem _, by decide +kernel, by decide⟩
  have names : (forked.analyze.layerNames.filter fun name => name.nodeId ≠ "spare") =
      [⟨"kept", .linear, 2⟩, ⟨"sum", .add, 1⟩] := by
    decide +kernel
  obtain ⟨accepted, order, shapes, named, kind, known, total⟩ := analyze_without forked valid leaf
  refine ⟨valid, leaf, accepted, order, shapes, names.symm.trans named, ?_⟩
  obtain rfl : kind = .linear := by
    have linear : forked.nodes[1].kind? = some .linear := by decide +kernel
    exact Option.some.inj (known.symm.trans linear)
  have weights : (Kind.linear.weightCount forked.nodes[1].params).toNat = 10 := by decide +kernel
  rw [weights] at total
  exact total

end Document

end LayerGraph
