import LayerGraph.Graph.Structure
import LayerGraph.Proofs.Graph.Resolution
import LayerGraph.Proofs.NodeRules
import LayerGraph.Proofs.Wiring.Search

/-!
# What the rules for nodes and structure accept

The rules look at a document and at its resolved graph. Together they accept exactly the documents
that are well built, and that is a condition on the nodes and edges as they are declared.
-/

namespace LayerGraph

namespace Document

def HasEdge (document : Document) (u v : String) : Prop :=
  ∃ edge ∈ document.edges, edge.source = u ∧ edge.target = v

/-- The conditions on the nodes and edges of a document that do not concern shapes. -/
structure WellBuilt (document : Document) : Prop where
  configured : ∀ node ∈ document.nodes, ∃ kind, node.Configured kind
  oneInput : document.nodes.countP Node.isInput = 1
  distinct : (document.nodes.map (·.id)).Nodup
  joined : ∀ edge ∈ document.edges,
    edge.source ∈ document.nodes.map (·.id) ∧ edge.target ∈ document.nodes.map (·.id)
  arity : ∀ node ∈ document.nodes, ∀ kind expected, node.kind? = some kind →
    kind.schema.inputs = .exactly expected →
    document.edges.countP (fun edge => edge.target = node.id) = expected
  acyclic : ∀ id, ¬ Relation.TransGen document.HasEdge id id

theorem named_of_configured {document : Document}
    (configured : ∀ node ∈ document.nodes, ∃ kind, node.Configured kind) :
    ∀ node ∈ document.nodes, node.id ≠ "" := by
  intro node member
  obtain ⟨kind, configured⟩ := configured node member
  exact configured.named

theorem inputDefects_eq_nil_iff (document : Document) :
    document.inputDefects = [] ↔ document.nodes.countP Node.isInput = 1 := by
  unfold inputDefects
  generalize document.nodes.countP Node.isInput = count
  rcases count with _ | _ | count <;> simp

end Document

/-- Nothing is found to be repeated exactly where all strings are distinct and new. -/
theorem repeated_eq_nil_iff (seen strings : List String) :
    repeated seen [] strings = [] ↔ strings.Nodup ∧ ∀ x ∈ strings, x ∉ seen := by
  induction strings generalizing seen with
  | nil => simp [repeated]
  | cons x rest ih =>
    by_cases old : x ∈ seen
    · simp [repeated, old]
    · simp only [repeated, List.contains_eq_mem, old, decide_false, Bool.false_eq_true, ↓reduceIte,
        ih, List.nodup_cons, List.mem_cons, forall_eq_or_imp, not_false_eq_true, true_and]
      grind

theorem Document.idDefects_eq_nil_iff (document : Document) : document.idDefects = [] ↔
    ((document.nodes.map (·.id)).filter (· ≠ "")).Nodup := by
  simp [idDefects, repeated_eq_nil_iff]

namespace Kind

/-- No kind takes more than one input, unless it takes any number. -/
theorem le_one_of_inputs {kind : Kind} {expected : Nat}
    (fixed : kind.schema.inputs = .exactly expected) : expected ≤ 1 := by
  cases kind <;> simp only [schema, layer, convolution, pooling, gated, needing, plain, merging,
    Arity.exactly.injEq, reduceCtorEq] at fixed <;> omega

/-- Only an input takes no inputs. -/
theorem eq_input_of_inputs {kind : Kind} (fixed : kind.schema.inputs = .exactly 0) :
    kind = .input := by
  cases kind <;> simp_all [schema, layer, convolution, pooling, gated, needing, plain, merging]

end Kind

namespace Graph

theorem declares_iff (graph : Graph) (id : String) : graph.declares id = true ↔ id ∈ graph.ids := by
  simp [declares, index?, List.isSome_idxOf?]

theorem edgeDefects_eq_nil_iff (document : Document) (edge : Edge) :
    (ofDocument document).edgeDefects edge = [] ↔ document.Resolves edge := by
  unfold edgeDefects Document.Resolves
  simp only [← mem_ids_ofDocument, ← declares_iff]
  split <;> simp_all

/-- Too few edges are noticed only where there are none, which is enough for a kind that takes at
most one. -/
theorem arityDefects_of_exactly {graph : Graph} {node : Node} {kind : Kind} {expected : Nat}
    (known : node.kind? = some kind) (fixed : kind.schema.inputs = .exactly expected) :
    graph.arityDefects node = [] ↔ graph.wiring.incoming node.id = expected := by
  have bound := Kind.le_one_of_inputs fixed
  simp only [arityDefects, known, fixed, Bool.and_eq_true, decide_eq_true_eq]
  split
  · rename_i missing
    simp only [List.cons_ne_nil, false_iff]
    omega
  · split
    · rename_i surplus
      simp only [List.cons_ne_nil, false_iff]
      omega
    · simp only [true_iff]
      omega

theorem arityDefects_eq_nil_iff {graph : Graph} {node : Node} : graph.arityDefects node = [] ↔
    ∀ kind expected, node.kind? = some kind → kind.schema.inputs = .exactly expected →
      graph.wiring.incoming node.id = expected := by
  constructor
  · intro accepted kind expected known fixed
    exact (arityDefects_of_exactly known fixed).mp accepted
  · intro arity
    cases known : node.kind? with
    | none => simp [arityDefects, known]
    | some kind =>
      cases inputs : kind.schema.inputs with
      | variadic => simp [arityDefects, known, inputs]
      | exactly expected =>
        exact (arityDefects_of_exactly known inputs).mpr (arity kind expected known inputs)

theorem cycleDefects_eq_nil_iff (document : Document) : (ofDocument document).cycleDefects = [] ↔
    ¬ (ofDocument document).wiring.Cyclic := by
  rw [← Wiring.hasCycle_iff_cyclic (wellFormed_ofDocument document)]
  unfold cycleDefects
  split <;> simp_all

theorem cyclic_ofDocument {document : Document}
    (joined : ∀ edge ∈ document.edges, document.Resolves edge) :
    (ofDocument document).wiring.Cyclic ↔ ∃ id, Relation.TransGen document.HasEdge id id := by
  have leads : (ofDocument document).wiring.Leads = document.HasEdge := by
    funext u v
    refine propext ((leads_ofDocument document u v).trans ?_)
    constructor
    · rintro ⟨edge, member, source, target, _⟩
      exact ⟨edge, member, source, target⟩
    · rintro ⟨edge, member, source, target⟩
      exact ⟨edge, member, source, target, joined edge member⟩
  simp only [Wiring.Cyclic, Wiring.Reaches, leads]

end Graph

namespace Document.WellBuilt

variable {document : Document} (wellBuilt : document.WellBuilt)

include wellBuilt

theorem named : ∀ node ∈ document.nodes, node.id ≠ "" :=
  Document.named_of_configured wellBuilt.configured

theorem exists_kind {node : Node} (member : node ∈ document.nodes) :
    ∃ kind, node.kind? = some kind := by
  obtain ⟨kind, configured⟩ := wellBuilt.configured node member
  exact ⟨kind, Kind.ofName?_eq_some_iff.mpr configured.known⟩

theorem configured_kind {node : Node} {kind : Kind} (member : node ∈ document.nodes)
    (known : node.kind? = some kind) : node.Configured kind := by
  obtain ⟨other, configured⟩ := wellBuilt.configured node member
  have same := Kind.ofName?_eq_some_iff.mpr configured.known
  obtain rfl : kind = other := Option.some.inj (known.symm.trans same)
  exact configured

theorem resolves : ∀ edge ∈ document.edges, document.Resolves edge := by
  intro edge member
  exact (Document.resolves_iff wellBuilt.named edge).mpr (wellBuilt.joined edge member)

theorem nodes_ofDocument : (Graph.ofDocument document).nodes = document.nodes :=
  Graph.nodes_ofDocument document wellBuilt.named wellBuilt.distinct

/-- The node that an id stands for is the one declared with it. -/
theorem declaration?_of_mem {node : Node} (member : node ∈ document.nodes) :
    document.declaration? node.id = some node := by
  rw [← Graph.mem_nodes_ofDocument, wellBuilt.nodes_ofDocument]
  exact member

theorem incoming {node : Node} {kind : Kind} {expected : Nat} (member : node ∈ document.nodes)
    (known : node.kind? = some kind) (fixed : kind.schema.inputs = .exactly expected) :
    (Graph.ofDocument document).wiring.incoming node.id = expected := by
  rw [Graph.incoming_ofDocument document wellBuilt.resolves]
  exact wellBuilt.arity node member kind expected known fixed

theorem not_cyclic : ¬ (Graph.ofDocument document).wiring.Cyclic := by
  rw [Graph.cyclic_ofDocument wellBuilt.resolves, not_exists]
  exact wellBuilt.acyclic

end Document.WellBuilt

namespace Graph

/-- The rules accept exactly the documents that are well built. -/
theorem diagnostics_eq_nil_iff (document : Document) :
    (ofDocument document).diagnostics document = [] ↔ document.WellBuilt := by
  simp only [diagnostics, structuralDiagnostics, List.append_eq_nil_iff, List.flatMap_eq_nil_iff,
    Node.diagnostics_eq_nil_iff, Document.inputDefects_eq_nil_iff, Document.idDefects_eq_nil_iff,
    edgeDefects_eq_nil_iff, arityDefects_eq_nil_iff, cycleDefects_eq_nil_iff]
  have unfiltered (named : ∀ node ∈ document.nodes, node.id ≠ "") :
      (document.nodes.map (·.id)).filter (· ≠ "") = document.nodes.map (·.id) := by
    simpa [List.filter_eq_self] using named
  constructor
  · rintro ⟨configured, ⟨⟨⟨oneInput, distinct⟩, resolves⟩, arity⟩, acyclic⟩
    have named := Document.named_of_configured configured
    rw [unfiltered named] at distinct
    simp only [nodes_ofDocument document named distinct,
      incoming_ofDocument document resolves] at arity
    rw [cyclic_ofDocument resolves, not_exists] at acyclic
    exact ⟨configured, oneInput, distinct,
      fun edge member => (Document.resolves_iff named edge).mp (resolves edge member), arity,
      acyclic⟩
  · intro wellBuilt
    have arity := wellBuilt.arity
    simp only [← incoming_ofDocument document wellBuilt.resolves] at arity
    rw [unfiltered wellBuilt.named, wellBuilt.nodes_ofDocument]
    exact ⟨wellBuilt.configured, ⟨⟨⟨wellBuilt.oneInput, wellBuilt.distinct⟩, wellBuilt.resolves⟩,
      arity⟩, wellBuilt.not_cyclic⟩

end Graph

end LayerGraph
