import LayerGraph.Document.Decode
import LayerGraph.Proofs.Json.Parts

/-!
# What documents are decoded from

The values that describe a document, field by field. Anything can stand for an id, a type or an end
of an edge, but not for the data of a node or its parameters: these have to be objects or null, or
be missing. A node of which this is not true spoils its document.
-/

namespace LayerGraph

namespace Document

open Json (Value Decoder)
open Json.Decoder

def textOf (part : Option Value) : String :=
  part.elim "" Value.lenientText

inductive ParamsFrom : Option Value → Params → Prop
  | missing : ParamsFrom none .empty
  | null : ParamsFrom (some .null) .empty
  | object (members : List (String × Value)) : ParamsFrom (some (.object members)) ⟨members⟩

inductive DataFrom : Option Value → Params → Prop
  | missing : DataFrom none .empty
  | null : DataFrom (some .null) .empty
  | record {data : Value} {params : Params} (form : data.HoldsRecord 1)
    (described : ParamsFrom (data.part? "params" 0) params) : DataFrom (some data) params

structure NodeFrom (v : Value) (node : Node) : Prop where
  form : v.HoldsRecord 3
  id : textOf (v.part? "id" 0) = node.id
  typeName : textOf (v.part? "type" 1) = node.typeName
  params : DataFrom (v.part? "data" 2) node.params

structure EdgeFrom (v : Value) (edge : Edge) : Prop where
  form : v.HoldsRecord 2
  source : textOf (v.part? "source" 0) = edge.source
  target : textOf (v.part? "target" 1) = edge.target

inductive ListFrom : Option Value → List Value → Prop
  | missing : ListFrom none []
  | null : ListFrom (some .null) []
  | array (vs : List Value) : ListFrom (some (.array vs)) vs

structure DescribedBy (document : Document) (v : Value) : Prop where
  form : v.HoldsRecord 2
  nodes : ∃ vs, ListFrom (v.part? "nodes" 0) vs ∧ List.Forall₂ NodeFrom vs document.nodes
  edges : ∃ vs, ListFrom (v.part? "edges" 1) vs ∧ List.Forall₂ EdgeFrom vs document.edges

theorem ListFrom.unique {part : Option Value} {vs ws : List Value} (lists : ListFrom part vs)
    (lists' : ListFrom part ws) : vs = ws := by
  cases lists <;> cases lists' <;> rfl

theorem ListFrom.mem {part : Option Value} {vs : List Value} (lists : ListFrom part vs)
    (distinct : ∀ v ∈ part, v.Distinct) : ∀ v ∈ vs, v.Distinct := by
  cases lists with
  | missing | null => nofun
  | array => exact Value.distinct_array.mp (distinct _ rfl)

theorem takes_lenientString {part : Option Value} {text : String} :
    lenientString.Takes "" part text ↔ textOf part = text := by
  cases part with
  | none => exact eq_comm
  | some v => simp [Takes, lenientString, map, any, textOf, Except.map]

theorem takes_paramsDecoder {part : Option Value} {params : Params} :
    paramsDecoder.Takes .empty part params ↔ ParamsFrom part params := by
  constructor
  · intro taken
    cases part with
    | none => exact taken ▸ .missing
    | some v =>
      cases v <;> cases taken
      · exact .null
      · exact .object _
  · rintro (_ | _ | _) <;> rfl

theorem takes_dataDecoder {part : Option Value} (distinct : ∀ v ∈ part, v.Distinct)
    {params : Params} : dataDecoder.Takes .empty part params ↔ DataFrom part params := by
  cases part with
  | none => exact ⟨fun taken => taken ▸ .missing, fun | .missing => rfl⟩
  | some v =>
    by_cases null : v = .null
    · subst null
      exact ⟨fun taken => by cases taken; exact .null, fun | .null => rfl⟩
    · rw [Takes, dataDecoder, orNull_ofValue null,
        record_ofValue_iff (List.pairwise_singleton ..) (List.nodup_singleton _) (distinct v rfl)]
      simp only [changeByParts_of_iff Params.empty, changeByParts_nil_iff, takes_paramsDecoder,
        exists_eq_right]
      constructor
      · rintro ⟨form, described⟩
        exact .record form described
      · intro data
        cases data with
        | null => contradiction
        | record form described => exact ⟨form, described⟩

theorem nodeDecoder_ofValue_iff {v : Value} (distinct : v.Distinct) {node : Node} :
    nodeDecoder.ofValue v = .ok node ↔ NodeFrom v node := by
  have data : ∀ x ∈ v.part? "data" 2, x.Distinct := fun _ found => distinct.part found
  rw [nodeDecoder, record_ofValue_iff (by simp [apart_of]) (by simp) distinct]
  simp only [changeByParts_of_iff "", changeByParts_of_iff Params.empty, changeByParts_nil_iff,
    takes_lenientString, takes_dataDecoder data]
  constructor
  · rintro ⟨form, id, named, typeName, typed, params, given, rfl⟩
    exact ⟨form, named, typed, given⟩
  · rintro ⟨form, named, typed, given⟩
    exact ⟨form, _, named, _, typed, _, given, rfl⟩

theorem edgeDecoder_ofValue_iff {v : Value} (distinct : v.Distinct) {edge : Edge} :
    edgeDecoder.ofValue v = .ok edge ↔ EdgeFrom v edge := by
  rw [edgeDecoder, record_ofValue_iff (by simp [apart_of]) (by simp) distinct]
  simp only [changeByParts_of_iff "", changeByParts_nil_iff, takes_lenientString]
  constructor
  · rintro ⟨form, source, starts, target, ends, rfl⟩
    exact ⟨form, starts, ends⟩
  · rintro ⟨form, starts, ends⟩
    exact ⟨form, _, starts, _, ends, rfl⟩

/-- Nodes and edges alike are taken one by one from what a part lists. -/
theorem takes_list {α : Type} {item : Decoder α} {From : Value → α → Prop}
    (each : ∀ {v : Value}, v.Distinct → ∀ {x : α}, item.ofValue v = .ok x ↔ From v x)
    {part : Option Value} (distinct : ∀ v ∈ part, v.Distinct) {xs : List α} :
    (item.list.orNull []).Takes [] part xs ↔
      ∃ vs, ListFrom part vs ∧ List.Forall₂ From vs xs := by
  have elements {vs : List Value} (lists : ListFrom part vs) :
      List.Forall₂ (fun v x => item.ofValue v = .ok x) vs xs ↔ List.Forall₂ From vs xs := by
    have inside := lists.mem distinct
    constructor
    · intro taken
      exact ((List.forall₂_and_left vs xs).mpr ⟨inside, taken⟩).imp
        fun v x ⟨distinct, taken⟩ => (each distinct).mp taken
    · intro described
      exact ((List.forall₂_and_left vs xs).mpr ⟨inside, described⟩).imp
        fun v x ⟨distinct, described⟩ => (each distinct).mpr described
  constructor
  · intro taken
    cases part with
    | none => exact ⟨[], .missing, taken ▸ .nil⟩
    | some v =>
      by_cases null : v = .null
      · subst null
        cases taken
        exact ⟨[], .null, .nil⟩
      · rw [Takes, orNull_ofValue null] at taken
        obtain ⟨vs, rfl, each⟩ := list_ofValue_iff.mp taken
        exact ⟨vs, .array vs, (elements (.array vs)).mp each⟩
  · rintro ⟨vs, lists, described⟩
    cases lists with
    | missing | null =>
      cases described
      rfl
    | array => exact list_ofValue_iff.mpr ⟨vs, rfl, (elements (.array vs)).mpr described⟩

/-- A document is decoded from the values that describe it. -/
theorem ofJson_eq_ok_iff {v : Value} (distinct : v.Distinct) {document : Document} :
    ofJson v = .ok document ↔ document.DescribedBy v := by
  have nodes : ∀ x ∈ v.part? "nodes" 0, x.Distinct := fun _ found => distinct.part found
  have edges : ∀ x ∈ v.part? "edges" 1, x.Distinct := fun _ found => distinct.part found
  rw [ofJson, decodeValue_eq_ok_iff, decoder,
    record_ofValue_iff (by simp [apart_of]) (by simp) distinct]
  simp only [empty, changeByParts_of_iff ([] : List Node), changeByParts_of_iff ([] : List Edge),
    changeByParts_nil_iff, takes_list nodeDecoder_ofValue_iff nodes,
    takes_list edgeDecoder_ofValue_iff edges]
  constructor
  · rintro ⟨form, nodes, listed, edges, listed', rfl⟩
    exact ⟨form, listed, listed'⟩
  · rintro ⟨form, listed, listed'⟩
    exact ⟨form, _, listed, _, listed', rfl⟩

theorem exists_forall₂_iff {α β : Type} {R : α → β → Prop} {xs : List α} :
    (∃ ys, List.Forall₂ R xs ys) ↔ ∀ x ∈ xs, ∃ y, R x y := by
  induction xs with
  | nil => exact ⟨fun _ => nofun, fun _ => ⟨[], .nil⟩⟩
  | cons x xs ih =>
    rw [List.forall_mem_cons, ← ih]
    constructor
    · rintro ⟨_, _ | ⟨first, rest⟩⟩
      exact ⟨⟨_, first⟩, _, rest⟩
    · rintro ⟨⟨y, first⟩, ys, rest⟩
      exact ⟨y :: ys, .cons first rest⟩

theorem ofJson_object_eq_ok_iff {members : List (String × Value)}
    {nodes edges : List (List (String × Value))} (distinct : (Value.object members).Distinct)
    (nodesListed : ListFrom (Table.get? "nodes" members) (nodes.map .object))
    (edgesListed : ListFrom (Table.get? "edges" members) (edges.map .object))
    {document : Document} :
    ofJson (.object members) = .ok document ↔
      List.Forall₂ (fun node => NodeFrom (.object node)) nodes document.nodes ∧
      List.Forall₂ (fun edge => EdgeFrom (.object edge)) edges document.edges := by
  rw [ofJson_eq_ok_iff distinct]
  constructor
  · rintro ⟨_, ⟨_, listed, described⟩, _, listed', described'⟩
    obtain rfl := nodesListed.unique listed
    obtain rfl := edgesListed.unique listed'
    exact ⟨List.forall₂_map_left_iff.mp described, List.forall₂_map_left_iff.mp described'⟩
  · rintro ⟨described, described'⟩
    exact ⟨.object members, ⟨_, nodesListed, List.forall₂_map_left_iff.mpr described⟩,
      ⟨_, edgesListed, List.forall₂_map_left_iff.mpr described'⟩⟩

/-- A document that lists objects as its nodes and edges is decoded if in each node the data, and the
parameters in it, are an object or null or missing; instead of an object, the data can be a list of
nothing but the parameters. The nodes and edges of the document are then those that the objects
describe, one for each and in their order. -/
theorem ofJson_of_objects {members : List (String × Value)}
    {nodes edges : List (List (String × Value))} (distinct : (Value.object members).Distinct)
    (nodesListed : ListFrom (Table.get? "nodes" members) (nodes.map .object))
    (edgesListed : ListFrom (Table.get? "edges" members) (edges.map .object)) :
    ((∃ document, ofJson (.object members) = .ok document) ↔
      ∀ node ∈ nodes, ∃ params, DataFrom (Table.get? "data" node) params) ∧
    ∀ document, ofJson (.object members) = .ok document →
      List.Forall₂ (fun node => NodeFrom (.object node)) nodes document.nodes ∧
      List.Forall₂ (fun edge => EdgeFrom (.object edge)) edges document.edges := by
  have decoded {document : Document} :=
    @ofJson_object_eq_ok_iff _ _ _ distinct nodesListed edgesListed document
  refine ⟨?_, fun document => decoded.mp⟩
  constructor
  · rintro ⟨document, read⟩ node member
    obtain ⟨_, described⟩ := exists_forall₂_iff.mp ⟨_, (decoded.mp read).1⟩ node member
    exact ⟨_, described.params⟩
  · intro readable
    have described : ∀ object ∈ nodes, ∃ node, NodeFrom (.object object) node := by
      intro object member
      obtain ⟨params, given⟩ := readable object member
      exact ⟨⟨_, _, params⟩, .object object, rfl, rfl, given⟩
    have described' : ∀ object ∈ edges, ∃ edge, EdgeFrom (.object object) edge :=
      fun object _ => ⟨⟨_, _⟩, .object object, rfl, rfl⟩
    obtain ⟨nodes, described⟩ := exists_forall₂_iff.mpr described
    obtain ⟨edges, described'⟩ := exists_forall₂_iff.mpr described'
    exact ⟨⟨nodes, edges⟩, decoded.mpr ⟨described, described'⟩⟩

/-- Nodes with odd ids and types, and data in all the forms that pass. -/
def oddNodes : List (List (String × Value)) :=
  [[("id", .nat 7), ("type", .bool true), ("data", .null), ("selected", .bool true)],
    [("type", .array []), ("data", .array [.object [("p", .null)]])],
    [("id", .object []), ("data", .object [("label", .string ""), ("params", .null)])]]

def looseEdge : List (String × Value) :=
  [("source", .nat 7), ("sourceHandle", .null)]

def oddGraph : List (String × Value) :=
  [("edges", .array [.object looseEdge]), ("nodes", .array (oddNodes.map .object))]

theorem ofJson_of_objects_odd :
    (Value.object oddGraph).Distinct ∧
    ListFrom (Table.get? "nodes" oddGraph) (oddNodes.map .object) ∧
    ListFrom (Table.get? "edges" oddGraph) ([looseEdge].map .object) ∧
    ∃ document, ofJson (.object oddGraph) = .ok document ∧
      List.Forall₂ (fun node => NodeFrom (.object node)) oddNodes document.nodes ∧
      List.Forall₂ (fun edge => EdgeFrom (.object edge)) [looseEdge] document.edges := by
  have distinct : (Value.object oddGraph).Distinct := by
    simp [oddGraph, oddNodes, looseEdge, Value.nat]
  have nodes : ListFrom (Table.get? "nodes" oddGraph) (oddNodes.map .object) := .array _
  have edges : ListFrom (Table.get? "edges" oddGraph) ([looseEdge].map .object) := .array _
  have readable : ∀ node ∈ oddNodes, ∃ params, DataFrom (Table.get? "data" node) params := by
    simp only [oddNodes, List.forall_mem_cons]
    refine ⟨⟨_, .null⟩, ⟨_, .record (.array ?_) (.object _)⟩, ⟨_, .record (.object _) .null⟩, nofun⟩
    exact Nat.le_refl 1
  obtain ⟨accepts, yields⟩ := ofJson_of_objects distinct nodes edges
  obtain ⟨document, read⟩ := accepts.mpr readable
  exact ⟨distinct, nodes, edges, document, read, yields document read⟩

def misfit : List (String × Value) :=
  [("id", .string "a"), ("type", .string "relu"), ("data", .nat 5)]

/-- Not every document of objects is decoded. -/
theorem not_ofJson_of_objects :
    ¬ ∀ (members : List (String × Value)) (nodes edges : List (List (String × Value))),
      (Value.object members).Distinct →
      ListFrom (Table.get? "nodes" members) (nodes.map .object) →
      ListFrom (Table.get? "edges" members) (edges.map .object) →
      ∃ document, ofJson (.object members) = .ok document := by
  intro decoded
  have distinct : (Value.object [("nodes", .array [.object misfit])]).Distinct := by
    simp [misfit, Value.nat]
  obtain ⟨document, read⟩ := decoded _ [misfit] [] distinct (.array _) .missing
  cases read

end Document

end LayerGraph
