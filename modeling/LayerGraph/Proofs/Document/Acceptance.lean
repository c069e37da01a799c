import LayerGraph.Proofs.Document.Grammar

/-!
# Which values are documents

A grammar of documents, stated on values alone. A record is an object or a list of its fields that
can end early. Whatever has a default can be left out or be null. Everything else a value of the
grammar says is kept: each element listed is a node or an edge, and each text and each object of
parameters is there as it was given.
-/

namespace LayerGraph

namespace Document

open Json (Value)

/-- A part is missing, or null, or of this form. -/
inductive Optionally (Form : Value → Prop) : Option Value → Prop
  | missing : Optionally Form none
  | null : Optionally Form (some .null)
  | given {v : Value} (form : Form v) : Optionally Form (some v)

inductive IsObject : Value → Prop
  | object (members : List (String × Value)) : IsObject (.object members)

inductive IsList (Form : Value → Prop) : Value → Prop
  | array {vs : List Value} (each : ∀ v ∈ vs, Form v) : IsList Form (.array vs)

structure IsData (v : Value) : Prop where
  form : v.HoldsRecord 1
  params : Optionally IsObject (v.part? "params" 0)

/-- A node: a record of an id, a type and data, the first two of any form. -/
structure IsNode (v : Value) : Prop where
  form : v.HoldsRecord 3
  data : Optionally IsData (v.part? "data" 2)

def IsEdge (v : Value) : Prop :=
  v.HoldsRecord 2

structure IsDocument (v : Value) : Prop where
  form : v.HoldsRecord 2
  nodes : Optionally (IsList IsNode) (v.part? "nodes" 0)
  edges : Optionally (IsList IsEdge) (v.part? "edges" 1)

def listed : Option Value → List Value
  | some (.array vs) => vs
  | _ => []

def members : Option Value → List (String × Value)
  | some (.object members) => members
  | _ => []

/-- A string stands for itself, a missing part or null for nothing, anything else for its compact
text. -/
inductive Says : Option Value → String → Prop
  | missing : Says none ""
  | null : Says (some .null) ""
  | string (text : String) : Says (some (.string text)) text
  | other {v : Value} (notNull : v ≠ .null) (noString : ∀ text, v ≠ .string text) :
    Says (some v) v.text

structure KeepsNode (v : Value) (node : Node) : Prop where
  id : Says (v.part? "id" 0) node.id
  typeName : Says (v.part? "type" 1) node.typeName
  params : node.params.members = members ((v.part? "data" 2).bind (Value.part? "params" 0))

structure KeepsEdge (v : Value) (edge : Edge) : Prop where
  source : Says (v.part? "source" 0) edge.source
  target : Says (v.part? "target" 1) edge.target

theorem says_textOf (part : Option Value) : Says part (textOf part) := by
  match part with
  | none => exact .missing
  | some .null => exact .null
  | some (.string text) => exact .string text
  | some (.bool _) | some (.number _) | some (.array _) | some (.object _) =>
    exact .other nofun nofun

theorem ParamsFrom.members_eq {part : Option Value} {params : Params}
    (described : ParamsFrom part params) : params.members = members part := by
  cases described <;> rfl

theorem DataFrom.members_eq {part : Option Value} {params : Params}
    (described : DataFrom part params) :
    params.members = members (part.bind (Value.part? "params" 0)) := by
  cases described with
  | missing | null => rfl
  | record _ described => exact described.members_eq

theorem NodeFrom.keeps {v : Value} {node : Node} (described : NodeFrom v node) :
    KeepsNode v node :=
  ⟨described.id ▸ says_textOf _, described.typeName ▸ says_textOf _, described.params.members_eq⟩

theorem EdgeFrom.keeps {v : Value} {edge : Edge} (described : EdgeFrom v edge) :
    KeepsEdge v edge :=
  ⟨described.source ▸ says_textOf _, described.target ▸ says_textOf _⟩

theorem ListFrom.eq_listed {part : Option Value} {vs : List Value} (lists : ListFrom part vs) :
    vs = listed part := by
  cases lists <;> rfl

theorem exists_paramsFrom_iff {part : Option Value} :
    (∃ params, ParamsFrom part params) ↔ Optionally IsObject part := by
  constructor
  · rintro ⟨params, described⟩
    cases described with
    | missing => exact .missing
    | null => exact .null
    | object members => exact .given (.object members)
  · intro form
    cases form with
    | missing => exact ⟨_, .missing⟩
    | null => exact ⟨_, .null⟩
    | given form =>
      obtain ⟨members⟩ := form
      exact ⟨_, .object members⟩

theorem exists_dataFrom_iff {part : Option Value} :
    (∃ params, DataFrom part params) ↔ Optionally IsData part := by
  constructor
  · rintro ⟨params, described⟩
    cases described with
    | missing => exact .missing
    | null => exact .null
    | record form described => exact .given ⟨form, exists_paramsFrom_iff.mp ⟨_, described⟩⟩
  · intro form
    cases form with
    | missing => exact ⟨_, .missing⟩
    | null => exact ⟨_, .null⟩
    | given data =>
      obtain ⟨params, described⟩ := exists_paramsFrom_iff.mpr data.params
      exact ⟨params, .record data.form described⟩

theorem exists_nodeFrom_iff {v : Value} : (∃ node, NodeFrom v node) ↔ IsNode v := by
  constructor
  · rintro ⟨node, described⟩
    exact ⟨described.form, exists_dataFrom_iff.mp ⟨_, described.params⟩⟩
  · intro form
    obtain ⟨params, described⟩ := exists_dataFrom_iff.mpr form.data
    exact ⟨⟨_, _, params⟩, form.form, rfl, rfl, described⟩

theorem exists_edgeFrom_iff {v : Value} : (∃ edge, EdgeFrom v edge) ↔ IsEdge v :=
  ⟨fun ⟨_, described⟩ => described.form, fun form => ⟨⟨_, _⟩, form, rfl, rfl⟩⟩

theorem exists_listFrom_iff {α : Type} {From : Value → α → Prop} {Form : Value → Prop}
    (each : ∀ {v : Value}, (∃ x, From v x) ↔ Form v) {part : Option Value} :
    (∃ xs vs, ListFrom part vs ∧ List.Forall₂ From vs xs) ↔ Optionally (IsList Form) part := by
  constructor
  · rintro ⟨xs, vs, lists, described⟩
    cases lists with
    | missing => exact .missing
    | null => exact .null
    | array =>
      exact .given (.array fun v member =>
        each.mp (exists_forall₂_iff.mp ⟨xs, described⟩ v member))
  · intro form
    cases form with
    | missing => exact ⟨[], [], .missing, .nil⟩
    | null => exact ⟨[], [], .null, .nil⟩
    | given list =>
      obtain ⟨forms⟩ := list
      obtain ⟨xs, described⟩ :=
        exists_forall₂_iff.mpr fun v member => each.mpr (forms v member)
      exact ⟨xs, _, .array _, described⟩

theorem exists_describedBy_iff {v : Value} :
    (∃ document : Document, document.DescribedBy v) ↔ IsDocument v := by
  constructor
  · rintro ⟨document, form, nodes, edges⟩
    exact ⟨form, (exists_listFrom_iff exists_nodeFrom_iff).mp ⟨_, nodes⟩,
      (exists_listFrom_iff exists_edgeFrom_iff).mp ⟨_, edges⟩⟩
  · rintro ⟨form, nodes, edges⟩
    obtain ⟨nodes, listed⟩ := (exists_listFrom_iff exists_nodeFrom_iff).mpr nodes
    obtain ⟨edges, listed'⟩ := (exists_listFrom_iff exists_edgeFrom_iff).mpr edges
    exact ⟨⟨nodes, edges⟩, form, listed, listed'⟩

/-- The values of the grammar are documents, and no others. A document has a node for each value
that its nodes list and an edge for each that its edges list, in their order, and all of them keep
what these values say. -/
theorem ofJson_accepts_grammar {v : Value} (distinct : v.Distinct) :
    ((∃ document, ofJson v = .ok document) ↔ IsDocument v) ∧
    ∀ document, ofJson v = .ok document →
      List.Forall₂ KeepsNode (listed (v.part? "nodes" 0)) document.nodes ∧
      List.Forall₂ KeepsEdge (listed (v.part? "edges" 1)) document.edges := by
  constructor
  · simp only [ofJson_eq_ok_iff distinct]
    exact exists_describedBy_iff
  · intro document read
    obtain ⟨_, ⟨vs, lists, nodes⟩, ⟨ws, lists', edges⟩⟩ := (ofJson_eq_ok_iff distinct).mp read
    obtain rfl := lists.eq_listed
    obtain rfl := lists'.eq_listed
    exact ⟨nodes.imp fun _ _ => NodeFrom.keeps, edges.imp fun _ _ => EdgeFrom.keeps⟩

/-- A document written as lists throughout: a node with an odd id and one parameter, and another one
with nothing but a type. -/
def terse : Value :=
  .array [.array [
    .array [.nat 7, .string "relu", .array [.object [("p", .null)]]],
    .object [("type", .string "output"), ("selected", .bool true)]]]

def verbose : Value :=
  .array [.null, .null, .null]

theorem ofJson_accepts_grammar_terse :
    terse.Distinct ∧ IsDocument terse ∧
    (∃ document, ofJson terse = .ok document ∧
      List.Forall₂ KeepsNode (listed (terse.part? "nodes" 0)) document.nodes ∧
      List.Forall₂ KeepsEdge (listed (terse.part? "edges" 1)) document.edges) ∧
    verbose.Distinct ∧ ¬ ∃ document, ofJson verbose = .ok document := by
  have distinct : terse.Distinct := by
    simp [terse, Value.nat]
  have distinct' : verbose.Distinct := by
    simp [verbose]
  have form : IsDocument terse := by
    refine ⟨.array (by decide), .given (.array ?_), .missing⟩
    simp only [List.forall_mem_cons, List.not_mem_nil, false_implies, implies_true, and_true]
    refine ⟨⟨.array (by decide), .given ⟨.array (by decide), .given (.object _)⟩⟩,
      ⟨.object _, .missing⟩⟩
  have surplus : ¬ IsDocument verbose := by
    rintro ⟨⟨⟩ | ⟨short⟩, _, _⟩
    exact absurd short (by decide)
  obtain ⟨accepts, keeps⟩ := ofJson_accepts_grammar distinct
  obtain ⟨document, read⟩ := accepts.mpr form
  exact ⟨distinct, form, ⟨document, read, keeps document read⟩, distinct',
    mt (ofJson_accepts_grammar distinct').1.mp surplus⟩

end Document

end LayerGraph
