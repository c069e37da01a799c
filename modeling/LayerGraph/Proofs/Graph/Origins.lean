import LayerGraph.Proofs.Arity
import LayerGraph.Proofs.Forms
import Mathlib.Algebra.BigOperators.Group.List.Basic
import Mathlib.Data.List.Find

/-!
# Origins of the nodes of valid documents

The walk from a node along first edges backwards ends at its origin. In a valid document this is
either the input, and then the node has a shape, or a node that merges what leads into it, where
nothing does.
-/

namespace LayerGraph

def Kind.Merges (kind : Kind) : Prop :=
  kind = .concatenate ∨ kind = .add ∨ kind = .multiply

instance (kind : Kind) : Decidable kind.Merges :=
  inferInstanceAs (Decidable (_ ∨ _))

theorem Kind.merges_iff (kind : Kind) : kind.Merges ↔ kind.schema.inputs = .variadic := by
  cases kind <;> decide

def Node.Merges (node : Node) : Prop :=
  ∃ kind ∈ node.kind?, kind.Merges

instance (node : Node) : Decidable node.Merges :=
  inferInstanceAs (Decidable (∃ kind ∈ node.kind?, kind.Merges))

namespace Document

/-- Where so many steps backwards from an id lead, each along the first edge into an id. -/
def traceBack (document : Document) : ℕ → String → Option String
  | 0, id => some id
  | steps + 1, id =>
    (document.edges.find? fun edge => edge.target = id).bind fun edge =>
      document.traceBack steps edge.source

/-- So many steps backwards from an id lead to the origin, and no edge leads on from there. -/
structure EndsAt (document : Document) (id : String) (steps : ℕ) (origin : String) : Prop where
  trace : document.traceBack steps id = some origin
  last : ∀ edge ∈ document.edges, edge.target ≠ origin

variable {document : Document}

theorem rightUnique_takesFrom : Relator.RightUnique document.TakesFrom :=
  fun _ _ _ first again => Option.some.inj (first.symm.trans again)

/-- Chains of first edges from one id that cannot be continued end at the same id. -/
theorem eq_of_chains {id origin other : String}
    (chain : Relation.ReflTransGen document.TakesFrom id origin)
    (last : document.firstSource? origin = none)
    (chain' : Relation.ReflTransGen document.TakesFrom id other)
    (last' : document.firstSource? other = none) : origin = other := by
  have stays {id other : String} (last : document.firstSource? id = none)
      (chain : Relation.ReflTransGen document.TakesFrom id other) : id = other := by
    rcases chain.cases_head with same | ⟨source, first, _⟩
    · exact same
    · rw [TakesFrom, last] at first
      contradiction
  rcases chain.total_of_right_unique rightUnique_takesFrom chain' with further | further
  · exact stays last further
  · exact (stays last' further).symm

theorem hasEdge_of_takesFrom {id source : String} (first : document.TakesFrom id source) :
    document.HasEdge source id := by
  obtain ⟨edge, member, source, target, _⟩ := connects_of_firstSource? first
  exact ⟨edge, member, source, target⟩

theorem Starved.merges {node : Node} (starved : document.Starved node) : node.Merges := by
  obtain ⟨kind, known, merging⟩ := starved.merging
  exact ⟨kind, known, kind.merges_iff.mpr merging⟩

namespace WellBuilt

variable (wellBuilt : document.WellBuilt)

include wellBuilt

theorem firstSource?_eq (id : String) : document.firstSource? id =
    (document.edges.find? fun edge => edge.target = id).map (·.source) := by
  refine congrArg _ (List.find?_congr fun edge member => ?_)
  simp [wellBuilt.resolves edge member]

theorem firstSource?_eq_none {id : String} (last : document.firstSource? id = none) :
    ∀ edge ∈ document.edges, edge.target ≠ id := by
  rw [wellBuilt.firstSource?_eq, Option.map_eq_none_iff, List.find?_eq_none] at last
  simpa using last

theorem traceBack_succ (steps : ℕ) (id : String) : document.traceBack (steps + 1) id =
    (document.firstSource? id).bind (document.traceBack steps) := by
  rw [wellBuilt.firstSource?_eq, Option.bind_map, traceBack]
  rfl

theorem chain_of_traceBack {steps : ℕ} {id origin : String}
    (trace : document.traceBack steps id = some origin) :
    Relation.ReflTransGen document.TakesFrom id origin := by
  induction steps generalizing id with
  | zero =>
    obtain rfl : id = origin := Option.some.inj trace
    exact .refl
  | succ steps ih =>
    rw [wellBuilt.traceBack_succ] at trace
    obtain ⟨source, first, trace⟩ := Option.bind_eq_some_iff.mp trace
    exact .head first (ih trace)

/-- Without nodes that merge, one edge leads into each node but the input. -/
theorem countP_target {node : Node} (member : node ∈ document.nodes) (single : ¬ node.Merges) :
    document.edges.countP (fun edge => edge.target = node.id) = if node.isInput then 0 else 1 := by
  obtain ⟨kind, known⟩ := wellBuilt.exists_kind member
  cases inputs : kind.schema.inputs with
  | variadic => exact absurd ⟨kind, known, kind.merges_iff.mpr inputs⟩ single
  | exactly expected =>
    rw [wellBuilt.arity node member kind expected known inputs]
    have bound := Kind.le_one_of_inputs inputs
    split
    · rename_i input
      obtain rfl : kind = .input := by simpa [Node.isInput, known] using input
      exact (Arity.exactly.inj inputs).symm
    · rename_i inner
      have positive : expected ≠ 0 := by
        rintro rfl
        apply inner
        simp [Node.isInput, known, Kind.eq_input_of_inputs inputs]
      omega

theorem length_edges (single : ∀ node ∈ document.nodes, ¬ node.Merges) :
    document.edges.length + 1 = document.nodes.length := by
  have joined : document.edges.countP (fun edge => edge.target ∈ document.nodes.map (·.id)) =
      document.edges.length := by
    rw [List.countP_eq_length]
    exact fun edge member => decide_eq_true (wellBuilt.joined edge member).2
  have shared := Wiring.sum_countP (·.target) document.edges wellBuilt.distinct
  rw [joined, List.map_map] at shared
  have each : document.nodes.map ((fun id => document.edges.countP fun edge => edge.target = id) ∘
      (·.id)) = document.nodes.map fun node => if node.isInput then 0 else 1 :=
    List.map_congr_left fun node member => wellBuilt.countP_target member (single node member)
  rw [each] at shared
  calc document.edges.length + 1
      = (document.nodes.map fun node => if node.isInput then 0 else 1).sum +
          document.nodes.countP Node.isInput := by rw [shared, wellBuilt.oneInput]
    _ = document.nodes.length := by
      rw [List.length_eq_countP_add_countP Node.isInput, List.sum_map_ite]
      simp [List.countP_eq_length_filter, Nat.add_comm]

variable {order : List String}
  (topological : (Graph.ofDocument document).wiring.TopologicalOrder order)

include topological

/-- Each step leads to an earlier place in the order, so the walk ends. -/
theorem exists_origin {node : Node} (member : node ∈ document.nodes) :
    ∃ steps ≤ order.idxOf node.id, ∃ origin ∈ document.nodes,
      document.traceBack steps node.id = some origin.id ∧
      document.firstSource? origin.id = none := by
  induction place : order.idxOf node.id using Nat.strong_induction_on generalizing node with
  | _ place ih =>
    cases first : document.firstSource? node.id with
    | none => exact ⟨0, Nat.zero_le _, node, member, rfl, first⟩
    | some source =>
      obtain ⟨twin, inside, rfl, before⟩ := exists_source topological first
      obtain ⟨steps, bound, origin, inside, trace, last⟩ := ih _ (place ▸ before) inside rfl
      refine ⟨steps + 1, by omega, origin, inside, ?_, last⟩
      rw [wellBuilt.traceBack_succ, first]
      exact trace

/-- Places in an order are fewer than the nodes. -/
theorem idxOf_lt {node : Node} (member : node ∈ document.nodes) :
    order.idxOf node.id < document.nodes.length := by
  have perm := (wellBuilt.listedBy topological).all
  rw [← List.length_map (·.id), ← perm.length_eq, List.idxOf_lt_length_iff, perm.mem_iff]
  exact List.mem_map_of_mem member

/-- A node has a shape if its origin is the input, and none if its origin is starved. -/
theorem yields_or_starved (shaped : ∀ id error, ¬ document.Yields id (.error error))
    {node origin : Node} (member : node ∈ document.nodes) (inside : origin ∈ document.nodes)
    (chain : Relation.ReflTransGen document.TakesFrom node.id origin.id)
    (last : document.firstSource? origin.id = none) :
    (origin.kind? = some .input ∧ ∃ shape, document.Yields node.id (.ok shape)) ∨
    (document.Starved origin ∧ ∀ result, ¬ document.Yields node.id result) := by
  rcases wellBuilt.input_or_starved inside last with known | starved
  · left
    refine ⟨known, wellBuilt.yields_of_fed topological shaped member fun other starved chain' => ?_⟩
    have same := eq_of_chains chain last chain' starved.firstSource?_eq_none
    obtain rfl := List.inj_on_of_nodup_map wellBuilt.distinct inside starved.member same
    obtain ⟨kind, known', merging⟩ := starved.merging
    obtain rfl := Option.some.inj (known.symm.trans known')
    contradiction
  · right
    exact ⟨starved, fun result yields => wellBuilt.not_starved_of_yields yields starved chain⟩

/-- If something leads into all nodes that merge, all walks backwards end at the input. -/
theorem reaches_of_supplied (supplied : ∀ node ∈ document.nodes, node.Merges →
      ∃ edge ∈ document.edges, edge.target = node.id) :
    ∃ input, document.nodes.filter Node.isInput = [input] ∧
      ∀ node ∈ document.nodes, Relation.ReflTransGen document.HasEdge input.id node.id := by
  obtain ⟨input, only⟩ := wellBuilt.exists_input
  refine ⟨input, only, fun node member => ?_⟩
  obtain ⟨steps, _, origin, inside, trace, last⟩ := wellBuilt.exists_origin topological member
  rcases wellBuilt.input_or_starved inside last with known | starved
  · have same := wellBuilt.filter_isInput inside known
    obtain rfl : input = origin := List.singleton_inj.mp (only.symm.trans same)
    have chain := wellBuilt.chain_of_traceBack trace
    exact Relation.ReflTransGen.mono (fun _ _ => hasEdge_of_takesFrom) _ _ chain.swap
  · obtain ⟨edge, member, into⟩ := supplied origin inside starved.merges
    exact absurd into (wellBuilt.firstSource?_eq_none last edge member)

end WellBuilt

/-- The walk backwards from a node of a valid document ends in fewer steps than there are nodes. It
ends at the input, and the node has a shape, or at a node that merges any number of inputs and has
none, and the node has no shape. If there is no such end, all nodes are reached from the input, and
if nothing merges, there is one node more than edges. -/
theorem origins_of_valid (document : Document) (valid : document.analyze.diagnostics = []) :
    (∀ node ∈ document.nodes, ∃ steps < document.nodes.length, ∃ origin ∈ document.nodes,
      document.EndsAt node.id steps origin.id ∧
      ((document.nodes.filter Node.isInput = [origin] ∧
          ∃ shape, Table.get? node.id document.analyze.shapes = some shape) ∨
        (origin.Merges ∧ Table.get? node.id document.analyze.shapes = none))) ∧
    ((∀ node ∈ document.nodes, node.Merges → ∃ edge ∈ document.edges, edge.target = node.id) →
      ∃ input, document.nodes.filter Node.isInput = [input] ∧
        ∀ node ∈ document.nodes, Relation.ReflTransGen document.HasEdge input.id node.id) ∧
    ((∀ node ∈ document.nodes, ¬ node.Merges) →
      document.edges.length = document.nodes.length - 1) := by
  obtain ⟨wellBuilt, order, scheduled, failures, analysis⟩ := analyze_of_valid valid
  have topological := Graph.topologicalOrder_of_schedule? scheduled
  have shaped := (Inference.failures_eq_nil_iff topological).mp failures
  refine ⟨fun node member => ?_, fun supplied => ?_, fun single => ?_⟩
  · obtain ⟨steps, bound, origin, inside, trace, last⟩ := wellBuilt.exists_origin topological member
    have chain := wellBuilt.chain_of_traceBack trace
    refine ⟨steps, bound.trans_lt (wellBuilt.idxOf_lt topological member), origin, inside,
      ⟨trace, wellBuilt.firstSource?_eq_none last⟩, ?_⟩
    simp only [analysis, Inference.shapes_iff_yields topological]
    rcases wellBuilt.yields_or_starved topological shaped member inside chain last with
      ⟨known, yields⟩ | ⟨starved, silent⟩
    · exact .inl ⟨wellBuilt.filter_isInput inside known, yields⟩
    · refine .inr ⟨starved.merges, Option.eq_none_iff_forall_ne_some.mpr fun shape recorded => ?_⟩
      exact silent _ ((Inference.shapes_iff_yields topological _ _).mp recorded)
  · exact wellBuilt.reaches_of_supplied topological supplied
  · have count := wellBuilt.length_edges single
    omega

def fanned : Document where
  nodes := [.ofKind "left" .relu .empty,
    .ofKind "image" .input ⟨[("shape", .array [.word 1, .word 8])]⟩,
    .ofKind "right" .relu .empty]
  edges := [⟨"image", "right"⟩, ⟨"image", "left"⟩]

/-- A document whose sum has no summands, one whose sum has some, and one without a sum. -/
theorem origins_of_valid_fanned :
    (detached.analyze.diagnostics = [] ∧
      ∀ node ∈ detached.nodes, ∃ steps < detached.nodes.length, ∃ origin ∈ detached.nodes,
        detached.EndsAt node.id steps origin.id ∧
        ((detached.nodes.filter Node.isInput = [origin] ∧
            ∃ shape, Table.get? node.id detached.analyze.shapes = some shape) ∨
          (origin.Merges ∧ Table.get? node.id detached.analyze.shapes = none))) ∧
    (branching.analyze.diagnostics = [] ∧
      (∀ node ∈ branching.nodes, node.Merges → ∃ edge ∈ branching.edges, edge.target = node.id) ∧
      ∃ input, branching.nodes.filter Node.isInput = [input] ∧
        ∀ node ∈ branching.nodes, Relation.ReflTransGen branching.HasEdge input.id node.id) ∧
    fanned.analyze.diagnostics = [] ∧ (∀ node ∈ fanned.nodes, ¬ node.Merges) ∧
      fanned.edges.length = fanned.nodes.length - 1 := by
  have valid : branching.analyze.diagnostics = [] := by decide +kernel
  have supplied : ∀ node ∈ branching.nodes, node.Merges →
      ∃ edge ∈ branching.edges, edge.target = node.id := by
    decide +kernel
  have valid' : fanned.analyze.diagnostics = [] := by decide +kernel
  have single : ∀ node ∈ fanned.nodes, ¬ node.Merges := by decide +kernel
  exact ⟨⟨detached_valid, (origins_of_valid detached detached_valid).1⟩,
    ⟨valid, supplied, (origins_of_valid branching valid).2.1 supplied⟩,
    valid', single, (origins_of_valid fanned valid').2.2 single⟩

end Document

end LayerGraph
