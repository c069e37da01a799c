import LayerGraph.Proofs.Graph.Inference
import LayerGraph.Proofs.Shape
import LayerGraph.Proofs.Table

/-!
# Shapes and failures of an analysis

The rules for nodes come before the shapes, so an analysis reports only failures that the rules
leave open. All shapes that it records begin with the batch that the input declares.
-/

namespace LayerGraph

theorem Defect.code_eq_shape_iff {defect : Defect} :
    defect.code = "I001" ↔ ∃ error, defect = .noShape error := by
  cases defect <;> simp [code]

namespace Node

theorem stage_of_mem_missingParams {kind : Kind} {params : Params} {defect : Defect}
    (member : defect ∈ missingParams kind params) : defect.stage = .nodes := by
  obtain ⟨name, _, rfl⟩ := List.mem_map.mp member
  rfl

theorem stage_of_mem_domainDefects {kind : Kind} {params : Params} {defect : Defect}
    (member : defect ∈ domainDefects kind params) : defect.stage = .nodes := by
  have positive {name : String} (member : defect ∈ positiveDefects params name) :
      defect.stage = .nodes := by
    unfold positiveDefects at member
    split at member
    · contradiction
    · split at member
      · contradiction
      · rw [List.mem_singleton.mp member, Defect.stage]
    · rw [List.mem_singleton.mp member, Defect.stage]
  unfold domainDefects at member
  split at member
  · obtain ⟨name, _, member⟩ := List.mem_flatMap.mp member
    exact positive member
  · obtain ⟨name, _, member⟩ := List.mem_flatMap.mp member
    exact positive member
  · unfold probabilityDefects at member
    split at member
    · contradiction
    · split at member
      · contradiction
      · rw [List.mem_singleton.mp member, Defect.stage]
    · rw [List.mem_singleton.mp member, Defect.stage]
  · contradiction

theorem stage_of_mem_diagnostics {node : Node} {diagnostic : Diagnostic}
    (member : diagnostic ∈ node.diagnostics) : diagnostic.defect.stage = .nodes := by
  unfold diagnostics at member
  split at member
  · rw [List.mem_singleton.mp member]
    rfl
  · split at member
    · rw [List.mem_singleton.mp member]
      rfl
    · obtain ⟨defect, found, rfl⟩ := List.mem_map.mp member
      rcases List.mem_append.mp found with missing | domain
      · exact stage_of_mem_missingParams missing
      · exact stage_of_mem_domainDefects domain

end Node

namespace Graph

theorem stage_of_mem_edgeDefects {graph : Graph} {edge : Edge} {diagnostic : Diagnostic}
    (member : diagnostic ∈ graph.edgeDefects edge) : diagnostic.defect.stage = .structural := by
  unfold edgeDefects at member
  split at member
  · rw [List.mem_singleton.mp member]
    rfl
  · split at member
    · rw [List.mem_singleton.mp member]
      rfl
    · contradiction

theorem stage_of_mem_arityDefects {graph : Graph} {node : Node} {diagnostic : Diagnostic}
    (member : diagnostic ∈ graph.arityDefects node) : diagnostic.defect.stage = .structural := by
  unfold arityDefects at member
  split at member
  · contradiction
  · split at member
    · contradiction
    · dsimp only at member
      split at member
      · rw [List.mem_singleton.mp member]
        rfl
      · split at member
        · rw [List.mem_singleton.mp member]
          rfl
        · contradiction

theorem stage_of_mem_structuralDiagnostics {graph : Graph} {document : Document}
    {diagnostic : Diagnostic} (member : diagnostic ∈ graph.structuralDiagnostics document) :
    diagnostic.defect.stage = .structural := by
  simp only [structuralDiagnostics, List.mem_append, or_assoc] at member
  rcases member with input | id | edge | arity | cycle
  · unfold Document.inputDefects at input
    split at input <;> simp_all [Diagnostic.ofGraph, Defect.stage]
  · obtain ⟨name, _, rfl⟩ := List.mem_map.mp id
    rfl
  · obtain ⟨edge, _, member⟩ := List.mem_flatMap.mp edge
    exact stage_of_mem_edgeDefects member
  · obtain ⟨node, _, member⟩ := List.mem_flatMap.mp arity
    exact stage_of_mem_arityDefects member
  · unfold cycleDefects at cycle
    split at cycle
    · rw [List.mem_singleton.mp cycle]
      rfl
    · contradiction

/-- The rules for nodes and structure say nothing about shapes. -/
theorem stage_of_mem_diagnostics {graph : Graph} {document : Document} {diagnostic : Diagnostic}
    (member : diagnostic ∈ graph.diagnostics document) :
    diagnostic.defect.stage = .nodes ∨ diagnostic.defect.stage = .structural := by
  rcases List.mem_append.mp member with node | structural
  · obtain ⟨node, _, member⟩ := List.mem_flatMap.mp node
    exact .inl (Node.stage_of_mem_diagnostics member)
  · exact .inr (stage_of_mem_structuralDiagnostics structural)

theorem infer_sorted (graph : Graph) {done : Inference} (sorted : Table.Sorted done.shapes)
    (id : String) : Table.Sorted (graph.infer done id).shapes := by
  rw [infer_eq]
  split
  · exact sorted
  · exact Table.sorted_insert sorted id _
  · exact sorted

theorem inferShapes_sorted (graph : Graph) (order : List String) :
    Table.Sorted (graph.inferShapes order).shapes := by
  have run (done : Inference) (sorted : Table.Sorted done.shapes) :
      Table.Sorted (order.foldl graph.infer done).shapes := by
    induction order generalizing done with
    | nil => exact sorted
    | cons id rest ih => exact ih _ (infer_sorted graph sorted id)
  exact run _ .nil

end Graph

namespace Document

/-- The document has one input, and this is the first entry of the shape that it declares. -/
def DeclaresBatch (document : Document) (batch : UInt64) : Prop :=
  ∃ input dimensions, document.nodes.filter Node.isInput = [input] ∧
    input.params.get? "shape" = some (.array (.number (.unsigned batch) :: dimensions))

/-- What holds of the shape of a node of a kind, or of the reason why it has none. -/
def Supports (document : Document) (kind : Kind) : Except ShapeError Shape → Prop
  | .ok shape => ∃ batch, document.DeclaresBatch batch ∧ Shape.Settled kind batch shape
  | .error error => error.Genuine kind

variable {document : Document}

theorem WellBuilt.exists_input (wellBuilt : document.WellBuilt) :
    ∃ input, document.nodes.filter Node.isInput = [input] := by
  rw [← List.length_eq_one_iff, ← List.countP_eq_length_filter]
  exact wellBuilt.oneInput

theorem WellBuilt.filter_isInput (wellBuilt : document.WellBuilt) {node : Node}
    (member : node ∈ document.nodes) (known : node.kind? = some .input) :
    document.nodes.filter Node.isInput = [node] := by
  obtain ⟨input, only⟩ := wellBuilt.exists_input
  have inside : node ∈ document.nodes.filter Node.isInput := by simp [member, Node.isInput, known]
  rw [only] at inside ⊢
  rw [List.mem_singleton.mp inside]

theorem WellBuilt.supports_input (wellBuilt : document.WellBuilt) {node : Node}
    (member : node ∈ document.nodes) (known : node.kind? = some .input) :
    document.Supports .input (Shape.declared node.params) := by
  cases declared : Shape.declared node.params with
  | ok shape =>
    obtain ⟨batch, rest, dimensions, rfl, given⟩ := Shape.declared_eq_ok declared
    exact ⟨batch, ⟨node, dimensions, wellBuilt.filter_isInput member known, given⟩, rfl, by simp,
      by simp⟩
  | error error => exact Shape.declared_eq_error declared

/-- All that can be derived is supported: each node hands on the batch that it was given. -/
theorem WellBuilt.supports_of_yields (wellBuilt : document.WellBuilt) {id : String}
    {result : Except ShapeError Shape} (yields : document.Yields id result) :
    ∃ node kind, document.declaration? id = some node ∧ node.kind? = some kind ∧
      document.Supports kind result := by
  induction yields with
  | @input id node result declared known transfer =>
    have member := (declaration?_mem declared).1
    exact ⟨node, .input, declared, known, transfer ▸ wellBuilt.supports_input member known⟩
  | @layer id source node kind operand result declared known inner first available transfer ih =>
    obtain ⟨_, _, _, _, batch, declares, settled⟩ := ih
    have configured := wellBuilt.configured_kind (declaration?_mem declared).1 known
    have answers := Kind.outputShape_answers configured inner settled.front
    rw [transfer] at answers
    refine ⟨node, kind, declared, known, ?_⟩
    cases result with
    | ok shape => exact ⟨batch, declares, answers⟩
    | error error => exact answers

/-- A diagnostic of missing shape names a node and a failure that its kind can have. Every
recorded shape begins with the batch of the input and has the form that its node settles. -/
theorem analyze_shapes_supported (document : Document) :
    (∀ diagnostic ∈ document.analyze.diagnostics, diagnostic.defect.code = "I001" →
      ∃ id node kind error, diagnostic = .ofNode id (.noShape error) ∧
        document.declaration? id = some node ∧ node.kind? = some kind ∧ error.Genuine kind) ∧
    ∀ id shape, (id, shape) ∈ document.analyze.shapes →
      ∃ node kind batch, document.declaration? id = some node ∧ node.kind? = some kind ∧
        document.DeclaresBatch batch ∧ Shape.Settled kind batch shape := by
  have recorded (wellBuilt : document.WellBuilt) (order : List String) :
      ∀ id shape, (id, shape) ∈ ((Graph.ofDocument document).inferShapes order).shapes →
      ∃ node kind batch, document.declaration? id = some node ∧ node.kind? = some kind ∧
        document.DeclaresBatch batch ∧ Shape.Settled kind batch shape := by
    intro id shape member
    have sorted := (Graph.ofDocument document).inferShapes_sorted order
    have found := (Table.mem_iff_get? sorted.nodup_names).mp member
    have yields := (Inference.inferShapes_sound document order).shapes id shape found
    obtain ⟨node, kind, declared, known, batch, declares, settled⟩ :=
      wellBuilt.supports_of_yields yields
    exact ⟨node, kind, batch, declared, known, declares, settled⟩
  have ends := document.analyze_ends
  generalize document.analyze = analysis at ends
  cases ends with
  | empty nodes => simp [Analysis.failed, Diagnostic.ofGraph, Defect.code]
  | rejected nodes notWellBuilt =>
    refine ⟨fun diagnostic member code => ?_, by simp [Analysis.failed]⟩
    obtain ⟨error, same⟩ := Defect.code_eq_shape_iff.mp code
    rcases Graph.stage_of_mem_diagnostics member with stage | stage <;>
      simp [same, Defect.stage] at stage
  | misshapen nodes wellBuilt order scheduled failures =>
    refine ⟨fun diagnostic member _ => ?_, recorded wellBuilt order⟩
    obtain ⟨⟨id, error⟩, failed, rfl⟩ := List.mem_map.mp member
    have yields := (Inference.inferShapes_sound document order).failures id error failed
    obtain ⟨node, kind, declared, known, genuine⟩ := wellBuilt.supports_of_yields yields
    exact ⟨id, node, kind, error, rfl, declared, known, genuine⟩
  | accepted nodes wellBuilt order scheduled failures =>
    exact ⟨by simp, recorded wellBuilt order⟩

def flatImage : Document where
  nodes := [
    .ofKind "image" .input ⟨[("shape", .array [.number (.unsigned 3), .number (.unsigned 8)])]⟩,
    .ofKind "mask" .conv2d ⟨[("in_channels", .number (.unsigned 1)),
      ("kernel_size", .number (.unsigned 2)), ("out_channels", .number (.unsigned 1))]⟩]
  edges := [⟨"image", "mask"⟩]

theorem analyze_shapes_supported_flatImage :
    (∃ id node kind error,
      Diagnostic.ofNode "mask" (.noShape (.rankMismatch .conv2d 4 [3, 8])) =
        .ofNode id (.noShape error) ∧
      flatImage.declaration? id = some node ∧ node.kind? = some kind ∧ error.Genuine kind) ∧
    ∃ node kind batch, flatImage.declaration? "image" = some node ∧ node.kind? = some kind ∧
      flatImage.DeclaresBatch batch ∧ Shape.Settled kind batch [3, 8] :=
  ⟨(analyze_shapes_supported flatImage).1 _ (by decide +kernel) rfl,
    (analyze_shapes_supported flatImage).2 _ _ (by decide +kernel)⟩

end Document

end LayerGraph
