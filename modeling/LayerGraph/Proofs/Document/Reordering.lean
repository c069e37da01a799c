import LayerGraph.Proofs.Graph.Inference

/-!
# Documents declared in another order

Two documents with the same nodes and edges, in which the edges into each id stand in the same
order. Whatever is said of a document by its declarations is said of the other too, so the same
shapes can be derived in both, and the rules find the same defects up to their order.
-/

namespace LayerGraph

namespace Document

/-- The same nodes in any order, and the same edges into every id. -/
structure Reordering (document other : Document) : Prop where
  nodes : document.nodes.Perm other.nodes
  edges : ∀ id, document.edges.filter (fun edge => edge.target = id) =
    other.edges.filter fun edge => edge.target = id

/-- No id stands for two nodes; any number of them may have no id. -/
def DistinctIds (document : Document) : Prop :=
  ((document.nodes.map (·.id)).filter (· ≠ "")).Nodup

theorem DistinctIds.unique {document : Document} (distinct : document.DistinctIds)
    {node twin : Node} (member : node ∈ document.nodes) (named : node.id ≠ "")
    (member' : twin ∈ document.nodes) (same : twin.id = node.id) : twin = node := by
  have distinct' : ((document.nodes.filter fun node => node.id ≠ "").map (·.id)).Nodup := by
    simpa only [DistinctIds, List.filter_map, Function.comp_def] using distinct
  exact List.inj_on_of_nodup_map distinct' (by simp [member', same, named])
    (by simp [member, named]) same

namespace Reordering

variable {document other : Document} (reordering : Reordering document other)

include reordering

theorem symm : Reordering other document :=
  ⟨reordering.nodes.symm, fun id => (reordering.edges id).symm⟩

theorem distinctIds (distinct : document.DistinctIds) : other.DistinctIds :=
  ((reordering.nodes.map _).filter _).nodup_iff.mp distinct

/-- Every edge leads into some id, so all edges are the same. -/
theorem edges_perm : document.edges.Perm other.edges := by
  rw [List.perm_iff_count]
  intro edge
  have into (edges : List Edge) :
      (edges.filter fun x => x.target = edge.target).count edge = edges.count edge :=
    List.count_filter (decide_eq_true rfl)
  rw [← into document.edges, reordering.edges, into]

theorem declares_iff (id : String) : document.Declares id ↔ other.Declares id := by
  simp only [Declares, reordering.nodes.mem_iff]

theorem resolves_iff (edge : Edge) : document.Resolves edge ↔ other.Resolves edge :=
  and_congr (reordering.declares_iff _) (reordering.declares_iff _)

theorem declaration?_imp (distinct : document.DistinctIds) {id : String} {node : Node}
    (declared : document.declaration? id = some node) : other.declaration? id = some node := by
  unfold declaration? at declared ⊢
  split at declared
  · contradiction
  · rename_i named
    rw [if_neg named]
    have same : node.id = id := by simpa using List.find?_some declared
    have member := List.mem_of_find?_eq_some declared
    subst same
    have search : (other.nodes.find? fun twin => twin.id = node.id).isSome := by
      rw [List.find?_isSome]
      exact ⟨node, reordering.nodes.mem_iff.mp member, decide_eq_true rfl⟩
    obtain ⟨twin, found⟩ := Option.isSome_iff_exists.mp search
    have inside := reordering.nodes.mem_iff.mpr (List.mem_of_find?_eq_some found)
    rw [found, distinct.unique member named inside (by simpa using List.find?_some found)]

theorem declaration?_eq (distinct : document.DistinctIds) (id : String) :
    document.declaration? id = other.declaration? id := by
  refine Option.ext fun node => ⟨reordering.declaration?_imp distinct, ?_⟩
  exact reordering.symm.declaration?_imp (reordering.distinctIds distinct)

theorem firstSource?_eq (id : String) : document.firstSource? id = other.firstSource? id := by
  have among (document : Document) : document.firstSource? id =
      ((document.edges.filter fun edge => edge.target = id).find?
        fun edge => document.Resolves edge).map (·.source) := by
    simp [firstSource?, List.find?_filter]
  rw [among, among, reordering.edges]
  simp only [reordering.resolves_iff]

theorem yields_imp (distinct : document.DistinctIds) {id : String}
    {result : Except ShapeError Shape} (yields : document.Yields id result) :
    other.Yields id result := by
  induction yields with
  | input declared known transfer =>
    exact .input (reordering.declaration?_eq distinct _ ▸ declared) known transfer
  | layer declared known inner first _ transfer ih =>
    exact .layer (reordering.declaration?_eq distinct _ ▸ declared) known inner
      (reordering.firstSource?_eq _ ▸ first) ih transfer

/-- The same shapes and failures can be derived. -/
theorem yields_iff (distinct : document.DistinctIds) (id : String)
    (result : Except ShapeError Shape) : document.Yields id result ↔ other.Yields id result :=
  ⟨reordering.yields_imp distinct,
    reordering.symm.yields_imp (reordering.distinctIds distinct)⟩

end Reordering

end Document

namespace Document.Reordering

open LayerGraph.Graph (ofDocument)

variable {document other : Document} (reordering : Reordering document other)

include reordering

theorem nodes_ofDocument_perm (distinct : document.DistinctIds) :
    (ofDocument document).nodes.Perm (ofDocument other).nodes := by
  have once (document : Document) : (ofDocument document).nodes.Nodup :=
    .of_map _ (Graph.nodup_ids_ofDocument document)
  rw [List.perm_ext_iff_of_nodup (once document) (once other)]
  intro node
  rw [Graph.mem_nodes_ofDocument, Graph.mem_nodes_ofDocument, reordering.declaration?_eq distinct]

theorem node?_ofDocument (distinct : document.DistinctIds) (id : String) :
    (ofDocument document).node? id = (ofDocument other).node? id := by
  rw [Graph.node?_ofDocument, Graph.node?_ofDocument, reordering.declaration?_eq distinct]

theorem arcs_perm :
    (ofDocument document).wiring.arcs.Perm (ofDocument other).wiring.arcs := by
  simp only [Graph.wiring, Graph.edges_ofDocument, reordering.resolves_iff]
  exact (reordering.edges_perm.filter _).map _

theorem leads_eq : (ofDocument document).wiring.Leads = (ofDocument other).wiring.Leads := by
  funext u v
  exact propext reordering.arcs_perm.mem_iff

theorem hasCycle_eq :
    (ofDocument document).wiring.hasCycle = (ofDocument other).wiring.hasCycle := by
  rw [Bool.eq_iff_iff, Wiring.hasCycle_iff_cyclic (Graph.wellFormed_ofDocument document),
    Wiring.hasCycle_iff_cyclic (Graph.wellFormed_ofDocument other)]
  simp only [Wiring.Cyclic, Wiring.Reaches, reordering.leads_eq]

theorem edgeDefects_eq (edge : Edge) :
    (ofDocument document).edgeDefects edge = (ofDocument other).edgeDefects edge := by
  have declares (id : String) :
      (ofDocument document).declares id = (ofDocument other).declares id := by
    rw [Bool.eq_iff_iff, Graph.declares_iff, Graph.declares_iff, Graph.mem_ids_ofDocument,
      Graph.mem_ids_ofDocument, reordering.declares_iff]
  simp only [Graph.edgeDefects, declares]

theorem arityDefects_eq (node : Node) :
    (ofDocument document).arityDefects node = (ofDocument other).arityDefects node := by
  have incoming : (ofDocument document).wiring.incoming node.id =
      (ofDocument other).wiring.incoming node.id := reordering.arcs_perm.countP_eq _
  simp only [Graph.arityDefects, incoming]

/-- The rules find the same defects, in the order in which they meet nodes and edges. -/
theorem diagnostics_perm (distinct : document.DistinctIds) :
    ((ofDocument document).diagnostics document).Perm ((ofDocument other).diagnostics other) := by
  have input : document.inputDefects = other.inputDefects := by
    simp only [inputDefects, reordering.nodes.countP_eq]
  have ids : document.idDefects = other.idDefects := by
    rw [(idDefects_eq_nil_iff document).mpr distinct,
      (idDefects_eq_nil_iff other).mpr (reordering.distinctIds distinct)]
  have edges : (document.edges.flatMap (ofDocument document).edgeDefects).Perm
      (other.edges.flatMap (ofDocument other).edgeDefects) :=
    reordering.edges_perm.flatMap fun edge _ => .of_eq (reordering.edgeDefects_eq edge)
  have arities : ((ofDocument document).nodes.flatMap (ofDocument document).arityDefects).Perm
      ((ofDocument other).nodes.flatMap (ofDocument other).arityDefects) :=
    (reordering.nodes_ofDocument_perm distinct).flatMap fun node _ =>
      .of_eq (reordering.arityDefects_eq node)
  have cycles : (ofDocument document).cycleDefects = (ofDocument other).cycleDefects := by
    simp only [Graph.cycleDefects, reordering.hasCycle_eq]
  unfold Graph.diagnostics Graph.structuralDiagnostics
  rw [input, ids, cycles]
  refine (reordering.nodes.flatMap_right _).append ?_
  exact ((edges.append_left _).append arities).append_right _

theorem wellBuilt_iff (distinct : document.DistinctIds) :
    document.WellBuilt ↔ other.WellBuilt := by
  have perm := reordering.diagnostics_perm distinct
  rw [← Graph.diagnostics_eq_nil_iff, ← Graph.diagnostics_eq_nil_iff]
  constructor
  · exact fun none => (none ▸ perm).nil_eq.symm
  · exact fun none => (none ▸ perm.symm).nil_eq.symm

end Document.Reordering

end LayerGraph
