import LayerGraph.Proofs.Graph.Assembly
import LayerGraph.Proofs.Graph.TieBreaking

/-!
# Answers by the declarations

What can be asked about a resolved graph has answers that mention the declarations of its document
only: places are ranks among the ids, and neighbors are the other ends of the edges that count. The
graph of a document gives these answers, and so does a store into which it was entered.
-/

namespace LayerGraph

/-- In an order by places, as many elements have a smaller place as stand before. -/
theorem idxOf_eq_countP {α : Type} [DecidableEq α] {place : α → ℕ} {list : List α}
    (ordered : list.Pairwise fun x y => place x < place y) {x : α} (member : x ∈ list) :
    list.idxOf x = list.countP fun y => place y < place x := by
  induction list with
  | nil => contradiction
  | cons y rest ih =>
    obtain ⟨first, ordered⟩ := List.pairwise_cons.mp ordered
    rcases List.mem_cons.mp member with rfl | later
    · have zero : (x :: rest).countP (fun z => place z < place x) = 0 := by
        refine List.countP_eq_zero.mpr fun z inside => ?_
        rw [decide_eq_true_iff, not_lt]
        rcases List.mem_cons.mp inside with rfl | inside
        · exact le_rfl
        · exact (first z inside).le
      rw [List.idxOf_cons_self, zero]
    · have apart : y ≠ x := fun same => Nat.lt_irrefl _ (same ▸ first x later)
      rw [List.idxOf_cons_ne _ apart, List.countP_cons_of_pos (by simpa using first x later),
        ih ordered later]

namespace Document

def declaredIds (document : Document) : Finset String :=
  (document.nodes.map (·.id)).toFinset.erase ""

/-- How many ids are declared before an id. -/
def rank (document : Document) (id : String) : ℕ :=
  (document.declaredIds.filter fun other => document.declaredAt other < document.declaredAt id).card

/-- The answers to all questions, by the declarations of a document. Two edges between the same
ids count twice, and an edge from an id to itself counts once in each direction. -/
structure Describes (document : Document) (answers : Answers) : Prop where
  count : answers.count = document.declaredIds.card
  index? : ∀ id, answers.index? id =
    if document.Declares id then some (document.rank id) else none
  node? : ∀ id, (answers.index? id).bind answers.node? = document.declaration? id
  successors : ∀ id, answers.neighbors? .outgoing id = some ((document.edges.filter fun edge =>
    edge.source = id ∧ document.Resolves edge).map (·.target))
  predecessors : ∀ id, answers.neighbors? .incoming id = some ((document.edges.filter fun edge =>
    edge.target = id ∧ document.Resolves edge).map (·.source))
  degree : ∀ direction id,
    (answers.neighbors? direction id).map List.length = some (answers.degree direction id)
  unknown : ∀ direction id, ¬ document.Declares id →
    answers.neighbors? direction id = some [] ∧ answers.degree direction id = 0

/-- The document without edges that lead nowhere and without nodes that have no id or one that was
declared before. -/
def tidied (document : Document) : Document where
  nodes := (document.nodes.zipIdx.filter fun entry =>
    entry.1.id ≠ "" ∧ document.declaredAt entry.1.id = entry.2).map (·.1)
  edges := document.edges.filter fun edge => document.Resolves edge

theorem mem_declaredIds {document : Document} {id : String} :
    id ∈ document.declaredIds ↔ document.Declares id := by
  simp [declaredIds, Declares]

end Document

namespace Graph

variable (document : Document)

theorem toFinset_ids_ofDocument : (ofDocument document).ids.toFinset = document.declaredIds := by
  ext id
  rw [List.mem_toFinset, mem_ids_ofDocument, Document.mem_declaredIds]

theorem length_nodes_ofDocument :
    (ofDocument document).nodes.length = document.declaredIds.card := by
  rw [← toFinset_ids_ofDocument, List.toFinset_card_of_nodup (nodup_ids_ofDocument document), ids,
    List.length_map]

theorem idxOf_ids_ofDocument {id : String} (declares : document.Declares id) :
    (ofDocument document).ids.idxOf id = document.rank id := by
  have member := (mem_ids_ofDocument document id).mpr declares
  have earlier : document.declaredIds.filter
        (fun other => document.declaredAt other < document.declaredAt id) =
      ((ofDocument document).ids.filter fun other =>
        document.declaredAt other < document.declaredAt id).toFinset := by
    rw [← toFinset_ids_ofDocument]
    ext other
    simp
  rw [idxOf_eq_countP (pairwise_ids_ofDocument document) member, Document.rank, earlier,
    List.toFinset_card_of_nodup ((nodup_ids_ofDocument document).filter _),
    List.countP_eq_length_filter]

theorem index?_ofDocument (id : String) : (ofDocument document).index? id =
    if document.Declares id then some (document.rank id) else none := by
  rw [index?, idxOf?_eq_ite]
  by_cases declares : document.Declares id
  · rw [if_pos declares, if_pos ((mem_ids_ofDocument document id).mpr declares),
      idxOf_ids_ofDocument document declares]
  · rw [if_neg declares, if_neg (mt (mem_ids_ofDocument document id).mp declares)]

theorem index?_bind_getElem? (graph : Graph) (id : String) :
    ((graph.index? id).bind fun place => graph.nodes[place]?) = graph.node? id := by
  rw [node?, List.find?_eq_bind_findIdx?_getElem?, index?, ids, List.idxOf?, List.findIdx?_map]
  rfl

theorem successors_ofDocument (id : String) : (ofDocument document).wiring.successors id =
    (document.edges.filter fun edge => edge.source = id ∧ document.Resolves edge).map
      (·.target) := by
  simp [Wiring.successors, wiring, edges_ofDocument, List.filter_map, List.filter_filter,
    Function.comp_def]

theorem predecessors_ofDocument (id : String) : (ofDocument document).wiring.predecessors id =
    (document.edges.filter fun edge => edge.target = id ∧ document.Resolves edge).map
      (·.source) := by
  simp [Wiring.predecessors, wiring, edges_ofDocument, List.filter_map, List.filter_filter,
    Function.comp_def]

/-- The graph of a document answers by its declarations. -/
theorem describes_answers : document.Describes (ofDocument document).answers where
  count := length_nodes_ofDocument document
  index? := index?_ofDocument document
  node? id := (index?_bind_getElem? _ id).trans (node?_ofDocument document id)
  successors id := congrArg some (successors_ofDocument document id)
  predecessors id := congrArg some (predecessors_ofDocument document id)
  degree direction id := congrArg some (Wiring.length_neighbors _ direction id)
  unknown direction id undeclared := by
    have outside := mt (mem_ids_ofDocument document id).mp undeclared
    have none := (wellFormed_ofDocument document).neighbors_of_notMem direction outside
    refine ⟨congrArg some none, ?_⟩
    change (ofDocument document).wiring.degree direction id = 0
    rw [← Wiring.length_neighbors, none, List.length_nil]

/-- The declarations that count are those at the first place of their id. -/
theorem firstDeclarations_eq_filter {seen : List String} (before rest : List Node)
    (known : ∀ id, id ≠ "" → (id ∈ seen ↔ id ∈ before.map (·.id))) :
    firstDeclarations seen rest = ((rest.zipIdx before.length).filter fun entry =>
      entry.1.id ≠ "" ∧ ((before ++ rest).map (·.id)).idxOf entry.1.id = entry.2).map (·.1) := by
  induction rest generalizing before seen with
  | nil => rfl
  | cons node rest ih =>
    have counts : (node.id ≠ "" ∧
          ((before ++ node :: rest).map (·.id)).idxOf node.id = before.length) ↔
        ¬ (node.id = "" ∨ node.id ∈ seen) := by
      rw [not_or]
      refine and_congr_right fun named => ?_
      rw [known _ named, List.map_append, List.idxOf_append]
      split
      · rename_i old
        have less := List.idxOf_lt_length_of_mem old
        rw [List.length_map] at less
        simp [old, less.ne]
      · rename_i new
        simp [new]
    have next : before.length + 1 = (before ++ [node]).length := by simp
    rw [firstDeclarations, List.zipIdx_cons, next, List.append_cons]
    split
    · rename_i skipped
      have skipped : node.id = "" ∨ node.id ∈ seen := by simpa using skipped
      rw [List.filter_cons_of_neg (by simpa using mt counts.mp (not_not.mpr skipped))]
      refine ih (before ++ [node]) fun id named => ?_
      rw [known id named, List.map_append, List.mem_append]
      refine (or_iff_left_of_imp fun same => ?_).symm
      obtain rfl : id = node.id := by simpa using same
      exact (known _ named).mp (skipped.resolve_left named)
    · rename_i kept
      have kept : ¬ (node.id = "" ∨ node.id ∈ seen) := by simpa using kept
      rw [List.filter_cons_of_pos (by simpa using counts.mpr kept), List.map_cons]
      refine congrArg _ (ih (before ++ [node]) fun id named => ?_)
      simp [known id named, or_comm]

theorem nodes_tidied : document.tidied.nodes = (ofDocument document).nodes :=
  (firstDeclarations_eq_filter [] document.nodes fun _ _ => Iff.rfl).symm

theorem ofDocument_tidied : ofDocument document.tidied = ofDocument document := by
  have nodes : (ofDocument document.tidied).nodes = (ofDocument document).nodes := by
    have named : ∀ node ∈ document.tidied.nodes, node.id ≠ "" := by
      intro node member
      rw [nodes_tidied] at member
      exact ((mem_ids_ofDocument document node.id).mp (List.mem_map_of_mem member)).1
    have distinct : (document.tidied.nodes.map (·.id)).Nodup := by
      rw [nodes_tidied]
      exact nodup_ids_ofDocument document
    rw [nodes_ofDocument _ named distinct, nodes_tidied]
  have declares (id : String) : document.tidied.Declares id ↔ document.Declares id := by
    rw [← mem_ids_ofDocument, ← mem_ids_ofDocument, ids, ids, nodes]
  have edges : (ofDocument document.tidied).edges = (ofDocument document).edges := by
    have resolves (edge : Edge) : document.tidied.Resolves edge ↔ document.Resolves edge :=
      and_congr (declares edge.source) (declares edge.target)
    simp only [edges_ofDocument, resolves]
    exact List.filter_eq_self.mpr fun edge member => (List.mem_filter.mp member).2
  exact congrArg₂ Graph.mk nodes edges

end Graph

namespace Assembly

/-- However a store keeps its nodes and arcs, a document that was entered into it answers by its
declarations, as its graph does, and what the graph leaves out makes no difference. -/
theorem describes_ofDocument {store : Store Node} (lawful : store.Lawful) (document : Document) :
    document.Describes (ofDocument store document).answers ∧
    (ofDocument store document).answers = (Graph.ofDocument document).answers ∧
    (ofDocument store document.tidied).answers = (ofDocument store document).answers := by
  have entered := answers_ofDocument lawful document
  refine ⟨?_, entered, ?_⟩
  · rw [entered]
    exact Graph.describes_answers document
  · rw [entered, answers_ofDocument lawful, Graph.ofDocument_tidied]

def tangled : Document where
  nodes := [.ofKind "left" .relu .empty, .ofKind "" .add .empty, .ofKind "sum" .add .empty,
    .ofKind "left" .input .empty, .ofKind "right" .relu .empty]
  edges := [⟨"left", "sum"⟩, ⟨"sum", "sum"⟩, ⟨"left", "lost"⟩, ⟨"right", "sum"⟩, ⟨"", "right"⟩,
    ⟨"left", "sum"⟩]

theorem describes_ofDocument_tangled :
    (Store.listed Node).Lawful ∧
    tangled.Describes (ofDocument (Store.listed Node) tangled).answers ∧
    (ofDocument (Store.listed Node) tangled).answers = (Graph.ofDocument tangled).answers ∧
    (ofDocument (Store.listed Node) tangled.tidied).answers =
      (ofDocument (Store.listed Node) tangled).answers :=
  ⟨Store.lawful_listed Node, describes_ofDocument (Store.lawful_listed Node) tangled⟩

example :
    let answers := (ofDocument (Store.listed Node) tangled).answers
    answers.index? "right" = some 2 ∧ answers.degree .outgoing "sum" = 1 ∧
    answers.neighbors? .incoming "sum" = some ["left", "sum", "right", "left"] := by
  decide

end Assembly

end LayerGraph
