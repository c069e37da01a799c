import LayerGraph.Graph
import LayerGraph.Proofs.Lookup
import LayerGraph.Proofs.Wiring.Walk

/-!
# What a document declares

The declarations and connections of a document, stated on its nodes and edges alone, and the
graph of the document described by them. Its wiring lists every vertex once, and its arcs join
listed vertices.
-/

namespace LayerGraph

namespace Document

/-- Some node is declared with this id. The empty id is none. -/
def Declares (document : Document) (id : String) : Prop :=
  id ≠ "" ∧ ∃ node ∈ document.nodes, node.id = id

def Resolves (document : Document) (edge : Edge) : Prop :=
  document.Declares edge.source ∧ document.Declares edge.target

instance (document : Document) (id : String) : Decidable (document.Declares id) :=
  inferInstanceAs (Decidable (_ ∧ _))

instance (document : Document) (edge : Edge) : Decidable (document.Resolves edge) :=
  inferInstanceAs (Decidable (_ ∧ _))

def declaration? (document : Document) (id : String) : Option Node :=
  if id = "" then none else document.nodes.find? fun node => node.id = id

/-- Where the first edge into an id comes from, among the edges with both ends declared. -/
def firstSource? (document : Document) (id : String) : Option String :=
  (document.edges.find? fun edge => edge.target = id ∧ document.Resolves edge).map (·.source)

def Connects (document : Document) (u v : String) : Prop :=
  ∃ edge ∈ document.edges, edge.source = u ∧ edge.target = v ∧ document.Resolves edge

theorem isSome_declaration? (document : Document) (id : String) :
    (document.declaration? id).isSome = true ↔ document.Declares id := by
  by_cases empty : id = ""
  · simp [declaration?, Declares, empty]
  · simp [declaration?, Declares, empty]

theorem declaration?_mem {document : Document} {id : String} {node : Node}
    (declared : document.declaration? id = some node) : node ∈ document.nodes ∧ node.id = id := by
  unfold declaration? at declared
  split at declared
  · contradiction
  · exact ⟨List.mem_of_find?_eq_some declared, by simpa using List.find?_some declared⟩

theorem connects_of_firstSource? {document : Document} {source id : String}
    (first : document.firstSource? id = some source) : document.Connects source id := by
  obtain ⟨edge, found, rfl⟩ := Option.map_eq_some_iff.mp first
  have same : edge.target = id ∧ document.Resolves edge := by simpa using List.find?_some found
  exact ⟨edge, List.mem_of_find?_eq_some found, rfl, same⟩

/-- Where every node has an id, both ends of an edge are declared if nodes have them as ids. -/
theorem resolves_iff {document : Document} (named : ∀ node ∈ document.nodes, node.id ≠ "")
    (edge : Edge) : document.Resolves edge ↔
      edge.source ∈ document.nodes.map (·.id) ∧ edge.target ∈ document.nodes.map (·.id) := by
  have declared (id : String) : document.Declares id ↔ id ∈ document.nodes.map (·.id) := by
    rw [Declares, List.mem_map]
    refine and_iff_right_of_imp ?_
    rintro ⟨node, member, rfl⟩
    exact named node member
  rw [Resolves, declared, declared]

end Document

namespace Graph

theorem find?_firstDeclarations (seen : List String) (nodes : List Node) (id : String) :
    (firstDeclarations seen nodes).find? (fun node => node.id = id) =
      if id = "" ∨ id ∈ seen then none else nodes.find? fun node => node.id = id := by
  induction nodes generalizing seen with
  | nil => simp [firstDeclarations]
  | cons node rest ih =>
    unfold firstDeclarations
    split
    · rename_i skipped
      rw [ih]
      by_cases same : node.id = id
      · have none : id = "" ∨ id ∈ seen := by simpa [same] using skipped
        simp [none]
      · simp [same]
    · rename_i kept
      by_cases same : node.id = id
      · have some : ¬ (id = "" ∨ id ∈ seen) := by simpa [same] using kept
        simp [same, some]
      · simp [same, ih, Ne.symm same]

theorem nodup_firstDeclarations (seen : List String) (nodes : List Node) :
    ((firstDeclarations seen nodes).map (·.id)).Nodup := by
  induction nodes generalizing seen with
  | nil => simp [firstDeclarations]
  | cons node rest ih =>
    unfold firstDeclarations
    split
    · exact ih seen
    · refine List.nodup_cons.mpr ⟨fun again => ?_, ih _⟩
      obtain ⟨other, member, same⟩ := List.mem_map.mp again
      have absent := find?_firstDeclarations (node.id :: seen) rest node.id
      simp only [List.mem_cons, true_or, or_true, ↓reduceIte] at absent
      simpa [same] using List.find?_eq_none.mp absent other member

theorem firstDeclarations_eq_self {seen : List String} {nodes : List Node}
    (named : ∀ node ∈ nodes, node.id ≠ "") (fresh : ∀ node ∈ nodes, node.id ∉ seen)
    (distinct : (nodes.map (·.id)).Nodup) : firstDeclarations seen nodes = nodes := by
  induction nodes generalizing seen with
  | nil => rfl
  | cons node rest ih =>
    obtain ⟨once, distinct⟩ := List.nodup_cons.mp distinct
    have kept : ¬ (node.id = "" ∨ node.id ∈ seen) := by
      simp [named node, fresh node]
    rw [firstDeclarations, if_neg (by simpa using kept)]
    have fresh : ∀ other ∈ rest, other.id ∉ node.id :: seen := by
      intro other inside again
      rcases List.mem_cons.mp again with same | old
      · exact once (List.mem_map.mpr ⟨other, inside, same⟩)
      · exact fresh other (by simp [inside]) old
    exact congrArg _ (ih (fun other inside => named other (by simp [inside])) fresh distinct)

section ofDocument

variable (document : Document)

theorem node?_ofDocument (id : String) :
    (ofDocument document).node? id = document.declaration? id := by
  simp [node?, ofDocument, Document.declaration?, find?_firstDeclarations]

theorem mem_ids_ofDocument (id : String) :
    id ∈ (ofDocument document).ids ↔ document.Declares id := by
  rw [← document.isSome_declaration?, ← node?_ofDocument, node?, List.find?_isSome]
  simp [ids]

theorem nodup_ids_ofDocument : (ofDocument document).ids.Nodup :=
  nodup_firstDeclarations [] document.nodes

theorem mem_nodes_ofDocument {document : Document} {node : Node} :
    node ∈ (ofDocument document).nodes ↔ document.declaration? node.id = some node := by
  rw [← node?_ofDocument, node?]
  constructor
  · exact fun member => find?_key_eq_some (nodup_ids_ofDocument document) member
  · exact List.mem_of_find?_eq_some

theorem nodes_ofDocument (named : ∀ node ∈ document.nodes, node.id ≠ "")
    (distinct : (document.nodes.map (·.id)).Nodup) :
    (ofDocument document).nodes = document.nodes :=
  firstDeclarations_eq_self named (by simp) distinct

theorem edges_ofDocument :
    (ofDocument document).edges = document.edges.filter fun edge => document.Resolves edge := by
  have declared (id : String) :
      (firstDeclarations [] document.nodes).any (fun node => node.id = id) = true ↔
        document.Declares id := by
    rw [← mem_ids_ofDocument]
    simp [ids, ofDocument]
  refine List.filter_congr fun edge _ => Bool.eq_iff_iff.mpr ?_
  rw [Bool.and_eq_true, decide_eq_true_iff]
  exact and_congr (declared edge.source) (declared edge.target)

theorem incoming_ofDocument (resolves : ∀ edge ∈ document.edges, document.Resolves edge)
    (id : String) : (ofDocument document).wiring.incoming id =
      document.edges.countP fun edge => edge.target = id := by
  have edges : (ofDocument document).edges = document.edges := by
    rw [edges_ofDocument, List.filter_eq_self]
    simpa using resolves
  simp [Wiring.incoming, wiring, edges, List.countP_map, Function.comp_def]

theorem leads_ofDocument (u v : String) :
    (ofDocument document).wiring.Leads u v ↔ document.Connects u v := by
  simp only [Wiring.Leads, wiring, edges_ofDocument, Document.Connects]
  simp only [List.mem_map, List.mem_filter, decide_eq_true_eq, Prod.mk.injEq]
  constructor
  · rintro ⟨edge, ⟨member, resolved⟩, source, target⟩
    exact ⟨edge, member, source, target, resolved⟩
  · rintro ⟨edge, member, source, target, resolved⟩
    exact ⟨edge, ⟨member, resolved⟩, source, target⟩

theorem leads_ofDocument_eq : (ofDocument document).wiring.Leads = document.Connects :=
  funext₂ fun u v => propext (leads_ofDocument document u v)

theorem wellFormed_ofDocument : (ofDocument document).wiring.WellFormed := by
  refine ⟨nodup_ids_ofDocument document, fun u v arc => ?_, fun u v arc => ?_⟩
  · obtain ⟨edge, _, rfl, _, resolved⟩ := (leads_ofDocument document u v).mp arc
    exact (mem_ids_ofDocument document _).mpr resolved.1
  · obtain ⟨edge, _, _, rfl, resolved⟩ := (leads_ofDocument document u v).mp arc
    exact (mem_ids_ofDocument document _).mpr resolved.2

theorem head?_predecessors_ofDocument (id : String) :
    ((ofDocument document).wiring.predecessors id).head? = document.firstSource? id := by
  simp only [Wiring.predecessors, wiring, edges_ofDocument, Document.firstSource?,
    List.filter_map, List.filter_filter, List.head?_map, List.head?_filter, Option.map_map]
  simp [Function.comp_def]

theorem firstSource?_eq_none_iff (id : String) :
    document.firstSource? id = none ↔ (ofDocument document).wiring.incoming id = 0 := by
  rw [← head?_predecessors_ofDocument, List.head?_eq_none_iff, ← Wiring.length_predecessors,
    List.length_eq_zero_iff]

end ofDocument

end Graph

end LayerGraph
