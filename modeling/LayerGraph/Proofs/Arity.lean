import LayerGraph.Proofs.Graph.Inference

/-!
# Inputs of the nodes of valid documents

A node of a valid document has as many edges into it as its kind takes. Kinds that merge any number
of inputs are left out: a node of such a kind passes without any input. It has no shape then, and
neither has a node that takes its shape from it, so their parameters are never looked at. All other
nodes of a valid document have a shape.
-/

namespace LayerGraph

/-- How many edges an arity admits by its name: so many as it says, or one or more. -/
def Arity.Admits : Arity → Nat → Prop
  | .exactly expected, actual => actual = expected
  | .variadic, actual => 1 ≤ actual

namespace Document

/-- A node takes its shape from another one: that is the source of the first edge into it. -/
def TakesFrom (document : Document) (id source : String) : Prop :=
  document.firstSource? id = some source

/-- A node of a kind that merges any number of inputs, and that has none. -/
structure Starved (document : Document) (node : Node) : Prop where
  member : node ∈ document.nodes
  merging : ∃ kind, node.kind? = some kind ∧ kind.schema.inputs = .variadic
  alone : (Graph.ofDocument document).wiring.incoming node.id = 0

variable {document : Document}

theorem Starved.firstSource?_eq_none {node : Node} (starved : document.Starved node) :
    document.firstSource? node.id = none :=
  (Graph.firstSource?_eq_none_iff document node.id).mpr starved.alone

/-- The source of the first edge into an id is a node that stands before it. -/
theorem exists_source {order : List String}
    (topological : (Graph.ofDocument document).wiring.TopologicalOrder order) {id source : String}
    (first : document.firstSource? id = some source) :
    ∃ node ∈ document.nodes, node.id = source ∧ order.idxOf source < order.idxOf id := by
  have connects := connects_of_firstSource? first
  have before := Graph.idxOf_lt_of_connects topological connects
  obtain ⟨_, _, rfl, _, ⟨_, node, member, same⟩, _⟩ := connects
  exact ⟨node, member, same, before⟩

/-- Where no failure can be derived, what can be derived is a shape. -/
theorem yields_ok {id : String} {result : Except ShapeError Shape}
    (shaped : ∀ id error, ¬ document.Yields id (.error error))
    (yields : document.Yields id result) : ∃ shape, document.Yields id (.ok shape) := by
  cases result with
  | ok shape => exact ⟨shape, yields⟩
  | error error => exact absurd yields (shaped id error)

namespace WellBuilt

variable (wellBuilt : document.WellBuilt)

include wellBuilt

/-- A node with a shape has it from the input, and not from a starved node. -/
theorem not_starved_of_yields {id : String} {result : Except ShapeError Shape}
    (yields : document.Yields id result) {origin : Node} (starved : document.Starved origin)
    (chain : Relation.ReflTransGen document.TakesFrom id origin.id) : False := by
  induction yields with
  | @input id node result declared known transfer =>
    have declared' := wellBuilt.declaration?_of_mem starved.member
    rcases chain.cases_head with rfl | ⟨source, first, _⟩
    · obtain ⟨kind, known', merging⟩ := starved.merging
      obtain rfl := Option.some.inj (declared.symm.trans declared')
      obtain rfl := Option.some.inj (known.symm.trans known')
      contradiction
    · obtain ⟨member, rfl⟩ := declaration?_mem declared
      have none := wellBuilt.incoming member known rfl
      rw [← Graph.firstSource?_eq_none_iff] at none
      rw [TakesFrom, none] at first
      contradiction
  | @layer id source node kind operand result declared known inner first available transfer ih =>
    rcases chain.cases_head with rfl | ⟨source', first', rest⟩
    · rw [starved.firstSource?_eq_none] at first
      contradiction
    · obtain rfl := Option.some.inj (first.symm.trans first')
      exact ih rest

/-- A node that takes no shape is the input or starved. -/
theorem input_or_starved {node : Node} (member : node ∈ document.nodes)
    (none : document.firstSource? node.id = none) :
    node.kind? = some .input ∨ document.Starved node := by
  have alone := (Graph.firstSource?_eq_none_iff document node.id).mp none
  obtain ⟨kind, known⟩ := wellBuilt.exists_kind member
  cases inputs : kind.schema.inputs with
  | variadic => exact .inr ⟨member, ⟨kind, known, inputs⟩, alone⟩
  | exactly expected =>
    rw [← wellBuilt.incoming member known inputs, alone] at inputs
    exact .inl (Kind.eq_input_of_inputs inputs ▸ known)

/-- A node has a shape unless the chain of first edges into it begins at a starved node. -/
theorem yields_of_fed {order : List String}
    (topological : (Graph.ofDocument document).wiring.TopologicalOrder order)
    (shaped : ∀ id error, ¬ document.Yields id (.error error)) {node : Node}
    (member : node ∈ document.nodes)
    (fed : ∀ origin, document.Starved origin →
      ¬ Relation.ReflTransGen document.TakesFrom node.id origin.id) :
    ∃ shape, document.Yields node.id (.ok shape) := by
  -- The source of the first edge stands before the node, so places in the order decrease.
  induction place : order.idxOf node.id using Nat.strong_induction_on generalizing node with
  | _ place ih =>
    have declared := wellBuilt.declaration?_of_mem member
    cases first : document.firstSource? node.id with
    | none =>
      rcases wellBuilt.input_or_starved member first with known | starved
      · exact yields_ok shaped (.input declared known rfl)
      · exact absurd .refl (fed node starved)
    | some source =>
      obtain ⟨twin, inside, rfl, before⟩ := exists_source topological first
      obtain ⟨operand, available⟩ := ih _ (place ▸ before) inside
        (fun origin starved chain => fed origin starved (.head first chain)) rfl
      obtain ⟨kind, known⟩ := wellBuilt.exists_kind member
      by_cases input : kind = .input
      · exact yields_ok shaped (.input declared (input ▸ known) rfl)
      · exact yields_ok shaped (.layer declared known input first available rfl)

end WellBuilt

/-- A node of a valid document has as many edges into it as its kind takes, if that is a number. It
has a shape exactly if the chain of first edges into it does not begin at a node that merges any
number of inputs and has none. So all nodes have one if there are no such nodes. -/
theorem arity_of_valid (document : Document) (valid : document.analyze.diagnostics = []) :
    (∀ node ∈ document.nodes, ∃ kind, node.kind? = some kind ∧
      ∀ expected, kind.schema.inputs = .exactly expected →
        (Graph.ofDocument document).wiring.incoming node.id = expected) ∧
    (∀ node ∈ document.nodes,
      (∃ shape, Table.get? node.id document.analyze.shapes = some shape) ↔
        ¬ ∃ origin, document.Starved origin ∧
          Relation.ReflTransGen document.TakesFrom node.id origin.id) ∧
    ((∀ node ∈ document.nodes, ∀ kind, node.kind? = some kind →
        kind.schema.inputs = .variadic →
        1 ≤ (Graph.ofDocument document).wiring.incoming node.id) →
      ∀ node ∈ document.nodes,
        ∃ shape, Table.get? node.id document.analyze.shapes = some shape) := by
  obtain ⟨wellBuilt, order, scheduled, failures, analysis⟩ := analyze_of_valid valid
  have topological := Graph.topologicalOrder_of_schedule? scheduled
  have shaped := (Inference.failures_eq_nil_iff topological).mp failures
  have shape_iff (node : Node) (member : node ∈ document.nodes) :
      (∃ shape, Table.get? node.id document.analyze.shapes = some shape) ↔
        ¬ ∃ origin, document.Starved origin ∧
          Relation.ReflTransGen document.TakesFrom node.id origin.id := by
    simp only [analysis, Inference.shapes_iff_yields topological]
    constructor
    · rintro ⟨shape, yields⟩ ⟨origin, starved, chain⟩
      exact wellBuilt.not_starved_of_yields yields starved chain
    · intro fed
      apply wellBuilt.yields_of_fed topological shaped member
      exact fun origin starved chain => fed ⟨origin, starved, chain⟩
  refine ⟨?_, shape_iff, ?_⟩
  · intro node member
    obtain ⟨kind, configured⟩ := wellBuilt.configured node member
    have known : node.kind? = some kind := Kind.ofName?_eq_some_iff.mpr configured.known
    exact ⟨kind, known, fun expected fixed => wellBuilt.incoming member known fixed⟩
  · intro supplied node member
    apply (shape_iff node member).mpr
    rintro ⟨origin, starved, _⟩
    obtain ⟨kind, known, merging⟩ := starved.merging
    have some := supplied origin starved.member kind known merging
    rw [starved.alone] at some
    contradiction

/-- A sum without summands, and a convolution behind it whose stride is zero. -/
def detached : Document where
  nodes := [
    .ofKind "image" .input ⟨[("shape", .array [.word 1, .word 8])]⟩,
    .ofKind "sum" .add .empty,
    .ofKind "mask" .conv2d ⟨[("in_channels", .word 1), ("kernel_size", .word 2),
      ("out_channels", .word 1), ("stride", .word 0)]⟩]
  edges := [⟨"sum", "mask"⟩]

theorem detached_valid : detached.analyze.diagnostics = [] := by
  decide +kernel

/-- Not every arity is kept as it reads, and not every node of a valid document has a shape. -/
theorem not_admits_of_valid :
    (¬ ∀ document : Document, document.analyze.diagnostics = [] →
      ∀ node ∈ document.nodes, ∀ kind, node.kind? = some kind →
        kind.schema.inputs.Admits ((Graph.ofDocument document).wiring.incoming node.id)) ∧
    ¬ ∀ document : Document, document.analyze.diagnostics = [] →
      ∀ node ∈ document.nodes,
        ∃ shape, Table.get? node.id document.analyze.shapes = some shape := by
  have member : detached.nodes[1] ∈ detached.nodes := List.getElem_mem _
  constructor
  · intro admits
    have some := admits detached detached_valid _ member .add (by decide +kernel)
    have none : (Graph.ofDocument detached).wiring.incoming detached.nodes[1].id = 0 := by
      decide +kernel
    rw [none] at some
    contradiction
  · intro shaped
    obtain ⟨shape, found⟩ := shaped detached detached_valid _ member
    have none : Table.get? detached.nodes[1].id detached.analyze.shapes = none := by
      decide +kernel
    rw [none] at found
    contradiction

/-- The sum and the convolution have no shape; in a document whose sum has summands, it has one. -/
theorem arity_of_valid_detached :
    detached.analyze.diagnostics = [] ∧
    (∀ node ∈ detached.nodes, ∃ kind, node.kind? = some kind ∧
      ∀ expected, kind.schema.inputs = .exactly expected →
        (Graph.ofDocument detached).wiring.incoming node.id = expected) ∧
    (∀ node ∈ detached.nodes,
      (∃ shape, Table.get? node.id detached.analyze.shapes = some shape) ↔
        ¬ ∃ origin, detached.Starved origin ∧
          Relation.ReflTransGen detached.TakesFrom node.id origin.id) ∧
    branching.analyze.diagnostics = [] ∧
    (∀ node ∈ branching.nodes, ∀ kind, node.kind? = some kind →
      kind.schema.inputs = .variadic →
      1 ≤ (Graph.ofDocument branching).wiring.incoming node.id) ∧
    ∀ node ∈ branching.nodes,
      ∃ shape, Table.get? node.id branching.analyze.shapes = some shape := by
  have valid : branching.analyze.diagnostics = [] := by decide +kernel
  have alone : ∀ node ∈ branching.nodes,
      (Graph.ofDocument branching).wiring.incoming node.id = 0 → node.kind? = some .input := by
    decide +kernel
  have supplied : ∀ node ∈ branching.nodes, ∀ kind, node.kind? = some kind →
      kind.schema.inputs = .variadic →
      1 ≤ (Graph.ofDocument branching).wiring.incoming node.id := by
    intro node member kind known merging
    apply Nat.one_le_iff_ne_zero.mpr
    intro none
    obtain rfl := Option.some.inj (known.symm.trans (alone node member none))
    contradiction
  obtain ⟨fixed, shape_iff, _⟩ := arity_of_valid detached detached_valid
  exact ⟨detached_valid, fixed, shape_iff, valid, supplied,
    (arity_of_valid branching valid).2.2 supplied⟩

end Document

end LayerGraph
