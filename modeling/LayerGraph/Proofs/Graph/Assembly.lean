import LayerGraph.Proofs.Graph.Resolution
import LayerGraph.Proofs.Wiring.Numbering

/-!
# Graphs assembled in a store

A document can be entered into a store of nodes and arcs, node by node and then edge by edge. The
store numbers its nodes and lists the arcs at every node, the newest first, and beside it stands a
table of the numbers of the ids. What is read back from it is what the graph of the document says.
-/

namespace LayerGraph

theorem getElem?_concat {α : Type} (list : List α) (x : α) (place : ℕ) :
    (list ++ [x])[place]? = if place = list.length then some x else list[place]? := by
  split
  · simp [*]
  · rename_i other
    rw [List.getElem?_append]
    split
    · rfl
    · rename_i beyond
      rw [List.getElem?_eq_none (by simp; omega), List.getElem?_eq_none (by omega)]

theorem idxOf?_eq_ite {α : Type} [DecidableEq α] (list : List α) (x : α) :
    list.idxOf? x = if x ∈ list then some (list.idxOf x) else none := by
  rw [List.idxOf_eq_getD_idxOf?]
  split
  · rename_i member
    obtain ⟨place, found⟩ := Option.isSome_iff_exists.mp (List.isSome_idxOf?.mpr member)
    rw [found, Option.getD_some]
  · rename_i outside
    exact List.idxOf?_eq_none_iff.mpr outside

theorem idxOf?_concat {α : Type} [DecidableEq α] {list : List α} {x : α} (fresh : x ∉ list)
    (y : α) : (list ++ [x]).idxOf? y = if x = y then some list.length else list.idxOf? y := by
  rw [idxOf?_eq_ite, idxOf?_eq_ite]
  by_cases same : x = y
  · subst same
    simp [List.idxOf_append, fresh]
  · by_cases old : y ∈ list <;> simp [List.idxOf_append, old, same, Ne.symm same]

theorem mapM_map_eq_some {α β : Type} {f : β → Option α} {g : α → β} {list : List α}
    (back : ∀ x ∈ list, f (g x) = some x) : (list.map g).mapM f = some list := by
  induction list with
  | nil => rfl
  | cons x rest ih =>
    have here := back x (List.mem_cons_self ..)
    have later := ih fun y member => back y (List.mem_cons_of_mem _ member)
    rw [List.map_cons, List.mapM_cons, here, later]
    rfl

structure Store (α : Type) where
  State : Type
  empty : State
  addNode : State → α → State × ℕ
  addArc : State → ℕ → ℕ → State
  count : State → ℕ
  node? : State → ℕ → Option α
  neighbors : State → Direction → ℕ → List ℕ

namespace Store

variable {α : Type}

/-- A store numbers its nodes in the order in which they come. A new arc, which has to join nodes
that are there, comes first among the arcs out of the one and among those into the other. -/
structure Lawful (store : Store α) : Prop where
  count_empty : store.count store.empty = 0
  node?_empty : ∀ number, store.node? store.empty number = none
  neighbors_empty : ∀ direction number, store.neighbors store.empty direction number = []
  number_addNode : ∀ graph x, (store.addNode graph x).2 = store.count graph
  count_addNode : ∀ graph x, store.count (store.addNode graph x).1 = store.count graph + 1
  node?_addNode : ∀ graph x number, store.node? (store.addNode graph x).1 number =
    if number = store.count graph then some x else store.node? graph number
  neighbors_addNode : ∀ graph x direction number,
    store.neighbors (store.addNode graph x).1 direction number =
      store.neighbors graph direction number
  count_addArc : ∀ graph s t, s < store.count graph → t < store.count graph →
    store.count (store.addArc graph s t) = store.count graph
  node?_addArc : ∀ graph s t, s < store.count graph → t < store.count graph →
    ∀ number, store.node? (store.addArc graph s t) number = store.node? graph number
  neighbors_addArc : ∀ graph s t, s < store.count graph → t < store.count graph →
    ∀ direction number, store.neighbors (store.addArc graph s t) direction number =
      if direction.near (s, t) = number then
        direction.far (s, t) :: store.neighbors graph direction number
      else store.neighbors graph direction number

/-- A store that keeps a list of its nodes and a list of its arcs, the newest first. -/
def listed (α : Type) : Store α where
  State := List α × List (ℕ × ℕ)
  empty := ([], [])
  addNode graph x := ((graph.1 ++ [x], graph.2), graph.1.length)
  addArc graph s t := (graph.1, (s, t) :: graph.2)
  count graph := graph.1.length
  node? graph number := graph.1[number]?
  neighbors graph direction number :=
    (graph.2.filter fun arc => direction.near arc = number).map direction.far

theorem lawful_listed (α : Type) : (listed α).Lawful where
  count_empty := rfl
  node?_empty _ := rfl
  neighbors_empty _ _ := rfl
  number_addNode _ _ := rfl
  count_addNode _ _ := List.length_append
  node?_addNode graph x number := getElem?_concat graph.1 x number
  neighbors_addNode _ _ _ _ := rfl
  count_addArc _ _ _ _ _ := rfl
  node?_addArc _ _ _ _ _ _ := rfl
  neighbors_addArc graph s t _ _ direction number := by
    change (((s, t) :: graph.2).filter fun arc => direction.near arc = number).map direction.far = _
    split <;> rename_i near
    · rw [List.filter_cons_of_pos (by simpa using near)]
      rfl
    · rw [List.filter_cons_of_neg (by simpa using near)]
      rfl

end Store

/-- What can be asked about a resolved graph: the number of its nodes, the number of an id and the
node under a number, and for an id its neighbors and how many they are. -/
@[ext]
structure Answers where
  count : ℕ
  index? : String → Option ℕ
  node? : ℕ → Option Node
  neighbors? : Direction → String → Option (List String)
  degree : Direction → String → ℕ

def Graph.answers (graph : Graph) : Answers where
  count := graph.nodes.length
  index? := graph.index?
  node? number := graph.nodes[number]?
  neighbors? direction id := some (graph.wiring.neighbors direction id)
  degree := graph.wiring.degree

structure Assembly (store : Store Node) where
  graph : store.State
  numbers : List (String × ℕ)

namespace Assembly

variable {store : Store Node}

def number? (assembly : Assembly store) (id : String) : Option ℕ :=
  Table.get? id assembly.numbers

def start : Assembly store :=
  ⟨store.empty, []⟩

def addNode (assembly : Assembly store) (node : Node) : Assembly store :=
  if node.id = "" || (assembly.number? node.id).isSome then assembly
  else
    let (graph, number) := store.addNode assembly.graph node
    ⟨graph, Table.insert node.id number assembly.numbers⟩

def addEdge (assembly : Assembly store) (edge : Edge) : Assembly store :=
  match assembly.number? edge.source, assembly.number? edge.target with
  | some s, some t => { assembly with graph := store.addArc assembly.graph s t }
  | _, _ => assembly

def ofDocument (store : Store Node) (document : Document) : Assembly store :=
  document.edges.foldl addEdge (document.nodes.foldl addNode start)

/-- The numbers of the neighbors of a node, the oldest first. -/
def neighborNumbers (assembly : Assembly store) (direction : Direction) (number : ℕ) : List ℕ :=
  (store.neighbors assembly.graph direction number).reverse

/-- The ids of the neighbors of an id; none if a neighbor has a number without a node. -/
def neighbors? (assembly : Assembly store) (direction : Direction) (id : String) :
    Option (List String) :=
  match assembly.number? id with
  | none => some []
  | some number => (assembly.neighborNumbers direction number).mapM fun other =>
    (store.node? assembly.graph other).map (·.id)

def degree (assembly : Assembly store) (direction : Direction) (id : String) : ℕ :=
  match assembly.number? id with
  | none => 0
  | some number => (store.neighbors assembly.graph direction number).length

def answers (assembly : Assembly store) : Answers where
  count := store.count assembly.graph
  index? := assembly.number?
  node? := store.node? assembly.graph
  neighbors? := assembly.neighbors?
  degree := assembly.degree

/-- A store holds a graph if it has the nodes under their places, and lists the arcs between the
places backwards. -/
structure Holds (assembly : Assembly store) (graph : Graph) : Prop where
  count : store.count assembly.graph = graph.nodes.length
  node? : ∀ number, store.node? assembly.graph number = graph.nodes[number]?
  number? : ∀ id, assembly.number? id = graph.index? id
  neighbors : ∀ direction number, store.neighbors assembly.graph direction number =
    (graph.wiring.numbered.neighbors direction number).reverse

section Holds

variable {assembly : Assembly store} {nodes : List Node} {edges : List Edge}

theorem holds_start (lawful : store.Lawful) : (start : Assembly store).Holds ⟨[], []⟩ where
  count := lawful.count_empty
  node? := lawful.node?_empty
  number? _ := rfl
  neighbors direction number := by
    cases direction <;> exact lawful.neighbors_empty _ number

namespace Holds

theorem number?_eq {graph : Graph} (holds : assembly.Holds graph) (id : String) :
    assembly.number? id = if id ∈ graph.ids then some (graph.ids.idxOf id) else none := by
  rw [holds.number?, Graph.index?, idxOf?_eq_ite]

theorem addNode_of_known {graph : Graph} (holds : assembly.Holds graph) {node : Node}
    (known : node.id = "" ∨ node.id ∈ graph.ids) : assembly.addNode node = assembly := by
  refine if_pos ?_
  rw [Bool.or_eq_true, decide_eq_true_iff, holds.number?, Graph.index?, List.isSome_idxOf?]
  exact known

theorem addNode (lawful : store.Lawful) (holds : assembly.Holds ⟨nodes, []⟩) {node : Node}
    (named : node.id ≠ "") (fresh : node.id ∉ nodes.map (·.id)) :
    (assembly.addNode node).Holds ⟨nodes ++ [node], []⟩ := by
  have unknown : assembly.number? node.id = none := by
    rw [holds.number?_eq]
    exact if_neg fresh
  have added : assembly.addNode node = ⟨(store.addNode assembly.graph node).1,
      Table.insert node.id (store.addNode assembly.graph node).2 assembly.numbers⟩ := by
    refine if_neg ?_
    simp [named, unknown]
  rw [added]
  refine ⟨?_, fun number => ?_, fun id => ?_, fun direction number => ?_⟩
  · rw [lawful.count_addNode, holds.count, List.length_append, List.length_singleton]
  · rw [lawful.node?_addNode, holds.node?, holds.count, getElem?_concat]
  · rw [Assembly.number?, Table.get?_insert, lawful.number_addNode, holds.count, Graph.index?,
      Graph.ids, List.map_append, List.map_singleton, idxOf?_concat fresh, List.length_map]
    exact if_congr Iff.rfl rfl (holds.number? id)
  · rw [lawful.neighbors_addNode, holds.neighbors]
    cases direction <;> rfl

theorem addNodes (lawful : store.Lawful) (rest : List Node) {seen : List String}
    (holds : assembly.Holds ⟨nodes, []⟩) (known : ∀ id, id ∈ seen ↔ id ∈ nodes.map (·.id)) :
    (rest.foldl Assembly.addNode assembly).Holds
      ⟨nodes ++ Graph.firstDeclarations seen rest, []⟩ := by
  induction rest generalizing assembly nodes seen with
  | nil => simpa [Graph.firstDeclarations] using holds
  | cons node rest ih =>
    rw [List.foldl_cons, Graph.firstDeclarations]
    split
    · rename_i skipped
      rw [holds.addNode_of_known (by simpa [Graph.ids, known] using skipped)]
      exact ih holds known
    · rename_i kept
      rw [Bool.or_eq_true, decide_eq_true_iff, List.contains_iff_mem, known, not_or] at kept
      rw [List.append_cons]
      refine ih (holds.addNode lawful kept.1 kept.2) fun id => ?_
      simp [known, eq_comm, or_comm]

theorem addEdge_of_unknown {graph : Graph} (holds : assembly.Holds graph) {edge : Edge}
    (unknown : ¬ (edge.source ∈ graph.ids ∧ edge.target ∈ graph.ids)) :
    assembly.addEdge edge = assembly := by
  rw [Assembly.addEdge, holds.number?_eq, holds.number?_eq]
  by_cases source : edge.source ∈ graph.ids
  · rw [if_neg fun target => unknown ⟨source, target⟩]
    split <;> trivial
  · rw [if_neg source]

theorem addEdge (lawful : store.Lawful) (holds : assembly.Holds ⟨nodes, edges⟩) {edge : Edge}
    (joined : edge.source ∈ nodes.map (·.id) ∧ edge.target ∈ nodes.map (·.id)) :
    (assembly.addEdge edge).Holds ⟨nodes, edges ++ [edge]⟩ := by
  have inside {id : String} (listed : id ∈ nodes.map (·.id)) :
      (nodes.map (·.id)).idxOf id < store.count assembly.graph := by
    rw [holds.count, ← List.length_map]
    exact List.idxOf_lt_length_of_mem listed
  have added : assembly.addEdge edge = { assembly with
      graph := store.addArc assembly.graph ((nodes.map (·.id)).idxOf edge.source)
        ((nodes.map (·.id)).idxOf edge.target) } := by
    have first := (holds.number?_eq edge.source).trans (if_pos joined.1)
    have second := (holds.number?_eq edge.target).trans (if_pos joined.2)
    rw [Assembly.addEdge, first, second]
    rfl
  have source := inside joined.1
  have target := inside joined.2
  rw [added]
  refine ⟨?_, fun number => ?_, holds.number?, fun direction number => ?_⟩
  · exact (lawful.count_addArc _ _ _ source target).trans holds.count
  · exact (lawful.node?_addArc _ _ _ source target number).trans (holds.node? number)
  · rw [lawful.neighbors_addArc _ _ _ source target, holds.neighbors]
    simp only [Wiring.numbered, Wiring.map, Graph.wiring, Graph.ids, List.map_append,
      List.map_cons, List.map_nil, Wiring.neighbors_concat]
    split <;> simp

theorem addEdges (lawful : store.Lawful) (rest : List Edge)
    (holds : assembly.Holds ⟨nodes, edges⟩) :
    (rest.foldl Assembly.addEdge assembly).Holds ⟨nodes, edges ++ rest.filter fun edge =>
      edge.source ∈ nodes.map (·.id) ∧ edge.target ∈ nodes.map (·.id)⟩ := by
  induction rest generalizing assembly edges with
  | nil => simpa using holds
  | cons edge rest ih =>
    rw [List.foldl_cons]
    by_cases joined : edge.source ∈ nodes.map (·.id) ∧ edge.target ∈ nodes.map (·.id)
    · rw [List.filter_cons_of_pos (by simpa using joined), List.append_cons]
      exact ih (holds.addEdge lawful joined)
    · rw [List.filter_cons_of_neg (by simpa using joined), holds.addEdge_of_unknown joined]
      exact ih holds

end Holds

/-- What is entered is the graph of the document. -/
theorem holds_ofDocument (lawful : store.Lawful) (document : Document) :
    (ofDocument store document).Holds (Graph.ofDocument document) := by
  have declared := (holds_start lawful).addNodes lawful document.nodes (fun _ => Iff.rfl)
  have entered := declared.addEdges lawful document.edges
  have edges : (Graph.ofDocument document).edges = document.edges.filter fun edge =>
      edge.source ∈ (Graph.ofDocument document).ids ∧
        edge.target ∈ (Graph.ofDocument document).ids := by
    rw [Graph.edges_ofDocument]
    refine List.filter_congr fun edge _ => decide_eq_decide.mpr ?_
    rw [Graph.mem_ids_ofDocument, Graph.mem_ids_ofDocument, Document.Resolves]
  have parts : Graph.ofDocument document =
      ⟨(Graph.ofDocument document).nodes, (Graph.ofDocument document).edges⟩ := rfl
  rw [parts, edges]
  exact entered

namespace Holds

variable {graph : Graph} (holds : assembly.Holds graph) (wellFormed : graph.wiring.WellFormed)

include holds wellFormed

theorem neighborNumbers_eq (direction : Direction) (id : String) :
    assembly.neighborNumbers direction (graph.ids.idxOf id) =
      (graph.wiring.neighbors direction id).map graph.ids.idxOf := by
  rw [neighborNumbers, holds.neighbors, List.reverse_reverse]
  exact wellFormed.neighbors_numbered direction id

theorem neighbors?_eq (direction : Direction) (id : String) :
    assembly.neighbors? direction id = some (graph.wiring.neighbors direction id) := by
  rw [Assembly.neighbors?, holds.number?_eq]
  by_cases listed : id ∈ graph.ids
  · rw [if_pos listed]
    dsimp only
    rw [neighborNumbers_eq holds wellFormed]
    refine mapM_map_eq_some fun other joined => ?_
    have listed : other ∈ graph.ids := wellFormed.mem_of_mem_neighbors joined
    rw [holds.node?, ← List.getElem?_map]
    exact List.getElem?_idxOf listed
  · rw [if_neg listed, wellFormed.neighbors_of_notMem direction listed]

theorem degree_eq (direction : Direction) (id : String) :
    assembly.degree direction id = graph.wiring.degree direction id := by
  rw [← Wiring.length_neighbors, Assembly.degree, holds.number?_eq]
  by_cases listed : id ∈ graph.ids
  · rw [if_pos listed]
    have same := congrArg List.length (holds.neighborNumbers_eq wellFormed direction id)
    rwa [neighborNumbers, List.length_reverse, List.length_map] at same
  · rw [if_neg listed, wellFormed.neighbors_of_notMem direction listed]
    rfl

/-- What is read back from a store is what the graph says. -/
theorem answers_eq : assembly.answers = graph.answers := by
  refine Answers.ext holds.count (funext holds.number?) (funext holds.node?) ?_ ?_
  · exact funext₂ (holds.neighbors?_eq wellFormed)
  · exact funext₂ (holds.degree_eq wellFormed)

end Holds

theorem answers_ofDocument (lawful : store.Lawful) (document : Document) :
    (ofDocument store document).answers = (Graph.ofDocument document).answers :=
  (holds_ofDocument lawful document).answers_eq (Graph.wellFormed_ofDocument document)

end Holds

end Assembly

end LayerGraph
