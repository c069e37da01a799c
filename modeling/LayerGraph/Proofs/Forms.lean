import LayerGraph.Proofs.Graph.Shapes
import LayerGraph.Report

/-!
# The forms of an analysis

An analysis has one of four forms, and the stage of its first diagnostic tells which. What a stage
yields is there in full or not at all: nothing beside the diagnostics if the rules found defects,
an order of all nodes and shapes once the rules are kept, weights and names only if nothing is
wrong. No form leaves room for a diagnostic of the scheduler.
-/

namespace LayerGraph

theorem Defect.code_of_stage_nodes {defect : Defect} (stage : defect.stage = .nodes) :
    defect.code ∈ ["N001", "N002", "N003", "N004"] := by
  cases defect <;> simp_all [Defect.stage, code]

theorem Defect.code_of_stage_structural {defect : Defect} (stage : defect.stage = .structural) :
    defect.code ∈ ["S001", "S002", "S003", "S004", "S005"] := by
  cases defect <;> simp_all [Defect.stage, code]

theorem Defect.code_eq_scheduling_iff {defect : Defect} :
    defect.code = "T001" ↔ defect.stage = .scheduling := by
  cases defect <;> simp [stage, code]

structure Document.ListedBy (document : Document) (order : List String) : Prop where
  once : order.Nodup
  all : order.Perm (document.nodes.map (·.id))

namespace Analysis

variable {document : Document} {analysis : Analysis}

structure Barren (analysis : Analysis) : Prop where
  order : analysis.order = []
  shapes : analysis.shapes = []
  layerNames : analysis.layerNames = []
  totalWeights : analysis.totalWeights = 0

structure Empty (document : Document) (analysis : Analysis) : Prop extends Barren analysis where
  nodes : document.nodes = []
  diagnostics : ∃ diagnostic, analysis.diagnostics = [diagnostic] ∧
    diagnostic.defect.stage = .parsing ∧ diagnostic.defect.code = "P002"

structure Rejected (document : Document) (analysis : Analysis) : Prop
    extends Barren analysis where
  nodes : document.nodes ≠ []
  found : analysis.diagnostics ≠ []
  stages : ∀ diagnostic ∈ analysis.diagnostics,
    diagnostic.defect.stage = .nodes ∧
      diagnostic.defect.code ∈ ["N001", "N002", "N003", "N004"] ∨
    diagnostic.defect.stage = .structural ∧
      diagnostic.defect.code ∈ ["S001", "S002", "S003", "S004", "S005"]

/-- Nodes have no shape for a reason of their own. Each of them is reported once. -/
structure Misshapen (document : Document) (analysis : Analysis) : Prop where
  found : analysis.diagnostics ≠ []
  stages : ∀ diagnostic ∈ analysis.diagnostics,
    diagnostic.defect.stage = .shapes ∧ diagnostic.defect.code = "I001"
  distinct : ∃ ids : List String, analysis.diagnostics.map (·.nodeId) = ids.map some ∧ ids.Nodup ∧
    ∀ id ∈ ids, id ∈ document.nodes.map (·.id)
  listed : document.ListedBy analysis.order
  unshaped : ∀ diagnostic ∈ analysis.diagnostics, ∀ id, diagnostic.nodeId = some id →
    id ∉ analysis.shapes.map (·.1)
  layerNames : analysis.layerNames = []
  totalWeights : analysis.totalWeights = 0

/-- Nothing is wrong. Shapes belong to nodes that are executed. -/
structure Accepted (document : Document) (analysis : Analysis) : Prop where
  diagnostics : analysis.diagnostics = []
  listed : document.ListedBy analysis.order
  shapes : ∀ id ∈ analysis.shapes.map (·.1), id ∈ analysis.order

inductive Form where
  | empty | rejected | misshapen | accepted
  deriving DecidableEq, Repr

def Form.Fits (document : Document) (analysis : Analysis) : Form → Prop
  | .empty => Empty document analysis
  | .rejected => Rejected document analysis
  | .misshapen => Misshapen document analysis
  | .accepted => Accepted document analysis

def Form.ofStage? : Option Stage → Form
  | none => .accepted
  | some .parsing => .empty
  | some .nodes | some .structural => .rejected
  | some .scheduling | some .shapes => .misshapen

theorem Form.Fits.eq_ofStage? {form : Form} (fits : form.Fits document analysis) :
    form = .ofStage? (analysis.diagnostics.head?.map fun diagnostic => diagnostic.defect.stage) := by
  cases form with
  | empty =>
    obtain ⟨diagnostic, only, stage, _⟩ := Empty.diagnostics fits
    rw [only, List.head?_cons, Option.map_some, stage]
    rfl
  | rejected =>
    obtain ⟨first, rest, some⟩ := List.exists_cons_of_ne_nil (Rejected.found fits)
    have stages := Rejected.stages fits first (some ▸ List.mem_cons_self ..)
    rw [some, List.head?_cons, Option.map_some]
    rcases stages with ⟨stage, _⟩ | ⟨stage, _⟩
    all_goals
      rw [stage]
      rfl
  | misshapen =>
    obtain ⟨first, rest, some⟩ := List.exists_cons_of_ne_nil (Misshapen.found fits)
    have stages := Misshapen.stages fits first (some ▸ List.mem_cons_self ..)
    rw [some, List.head?_cons, Option.map_some, stages.1]
    rfl
  | accepted =>
    rw [Accepted.diagnostics fits]
    rfl

theorem Form.Fits.stage_ne_scheduling {form : Form} (fits : form.Fits document analysis)
    {diagnostic : Diagnostic} (member : diagnostic ∈ analysis.diagnostics) :
    diagnostic.defect.stage ≠ .scheduling := by
  intro scheduling
  cases form with
  | empty =>
    obtain ⟨only, single, stage, _⟩ := Empty.diagnostics fits
    rw [single, List.mem_singleton] at member
    rw [member, stage] at scheduling
    contradiction
  | rejected =>
    rcases Rejected.stages fits diagnostic member with ⟨stage, _⟩ | ⟨stage, _⟩
    all_goals
      rw [stage] at scheduling
      contradiction
  | misshapen =>
    rw [(Misshapen.stages fits diagnostic member).1] at scheduling
    contradiction
  | accepted =>
    rw [Accepted.diagnostics fits] at member
    contradiction

/-- Only an analysis that found nothing wrong has a total. -/
theorem Form.Fits.totalWeights_eq_zero {form : Form} (fits : form.Fits document analysis)
    (invalid : analysis.isValid = false) : analysis.totalWeights = 0 := by
  cases form with
  | empty => exact (Empty.toBarren fits).totalWeights
  | rejected => exact (Rejected.toBarren fits).totalWeights
  | misshapen => exact Misshapen.totalWeights fits
  | accepted =>
    rw [isValid, Accepted.diagnostics fits] at invalid
    contradiction

end Analysis

namespace Inference

variable {document : Document} {order : List String}

/-- Nodes that fail do so once, in the order in which they come. -/
theorem exists_filter_failures
    (topological : (Graph.ofDocument document).wiring.TopologicalOrder order) :
    ∃ failing : String → Bool,
      ((Graph.ofDocument document).inferShapes order).failures.map (·.1) = order.filter failing := by
  obtain ⟨fails, spec⟩ := exists_fails document
  refine ⟨fun id => (fails id).isSome, ?_⟩
  have guarded (id : String) : ((fails id).map fun _ => id) =
      Option.guard (fun id => (fails id).isSome) id := by
    cases failing : fails id <;> simp [Option.guard, failing]
  rw [(inferShapes_invariant topological spec).failures, List.map_filterMap]
  simp only [Option.map_map, Function.comp_def, guarded, List.filterMap_eq_filter]

/-- A node that fails has no shape. -/
theorem Sound.get?_eq_none {done : Inference} (sound : Sound document done) {id : String}
    {error : ShapeError} (failed : (id, error) ∈ done.failures) :
    Table.get? id done.shapes = none := by
  rw [Option.eq_none_iff_forall_ne_some]
  intro shape recorded
  have yields := (sound.failures id error failed).unique (sound.shapes id shape recorded)
  contradiction

theorem mem_of_mem_shapes
    (topological : (Graph.ofDocument document).wiring.TopologicalOrder order) {id : String}
    (recorded : id ∈ ((Graph.ofDocument document).inferShapes order).shapes.map (·.1)) :
    id ∈ order := by
  obtain ⟨shape, found⟩ := Table.exists_get?_of_mem recorded
  exact mem_of_yields topological ((inferShapes_sound document order).shapes id shape found)

end Inference

namespace Document

open Analysis (Form)

variable {document : Document} {order : List String}

theorem WellBuilt.listedBy (wellBuilt : document.WellBuilt)
    (topological : (Graph.ofDocument document).wiring.TopologicalOrder order) :
    document.ListedBy order := by
  refine ⟨topological.distinct, ?_⟩
  rw [← wellBuilt.nodes_ofDocument]
  exact topological.perm (Graph.wellFormed_ofDocument document)

theorem WellBuilt.misshapen (wellBuilt : document.WellBuilt)
    (topological : (Graph.ofDocument document).wiring.TopologicalOrder order)
    (failures : ((Graph.ofDocument document).inferShapes order).failures ≠ []) :
    Analysis.Misshapen document ⟨((Graph.ofDocument document).inferShapes order).diagnostics, order,
      ((Graph.ofDocument document).inferShapes order).shapes, [], 0⟩ := by
  have listed := wellBuilt.listedBy topological
  have sound := Inference.inferShapes_sound document order
  refine ⟨?_, ?_, ?_, listed, ?_, rfl, rfl⟩
  · simpa [Inference.diagnostics] using failures
  · intro diagnostic member
    obtain ⟨failure, _, rfl⟩ := List.mem_map.mp member
    exact ⟨rfl, rfl⟩
  · obtain ⟨failing, filtered⟩ := Inference.exists_filter_failures topological
    refine ⟨order.filter failing, ?_, listed.once.filter _, ?_⟩
    · rw [← filtered, Inference.diagnostics, List.map_map, List.map_map]
      rfl
    · intro id member
      exact listed.all.mem_iff.mp (List.mem_of_mem_filter member)
  · intro diagnostic member id named recorded
    obtain ⟨⟨failed, error⟩, failure, rfl⟩ := List.mem_map.mp member
    obtain rfl : failed = id := Option.some.inj named
    exact Table.get?_eq_none_iff.mp (sound.get?_eq_none failure) recorded

theorem exists_fits (document : Document) : ∃ form : Form, form.Fits document document.analyze := by
  have ends := document.analyze_ends
  generalize document.analyze = analysis at ends
  cases ends with
  | empty nodes => exact ⟨.empty, ⟨rfl, rfl, rfl, rfl⟩, nodes, _, rfl, rfl, rfl⟩
  | rejected nodes notWellBuilt =>
    refine ⟨.rejected, ⟨rfl, rfl, rfl, rfl⟩, nodes, ?_, ?_⟩
    · exact mt (Graph.diagnostics_eq_nil_iff document).mp notWellBuilt
    · intro diagnostic member
      rcases Graph.stage_of_mem_diagnostics member with stage | stage
      · exact .inl ⟨stage, Defect.code_of_stage_nodes stage⟩
      · exact .inr ⟨stage, Defect.code_of_stage_structural stage⟩
  | misshapen nodes wellBuilt order scheduled failures =>
    have topological := Graph.topologicalOrder_of_schedule? scheduled
    exact ⟨.misshapen, wellBuilt.misshapen topological failures⟩
  | accepted nodes wellBuilt order scheduled failures =>
    have topological := Graph.topologicalOrder_of_schedule? scheduled
    refine ⟨.accepted, rfl, wellBuilt.listedBy topological, ?_⟩
    intro id recorded
    exact Inference.mem_of_mem_shapes topological recorded

/-- The analysis of a document has exactly one of the four forms. So the scheduler never has
anything to report, and a document that is not valid has no total. -/
theorem analyze_form (document : Document) :
    (∃! form : Form, form.Fits document document.analyze) ∧
    (∀ diagnostic ∈ document.analyze.diagnostics,
      diagnostic.defect.stage ≠ .scheduling ∧ diagnostic.defect.code ≠ "T001") ∧
    ((Verdict.ofAnalysis document.analyze).valid = false →
      document.analyze.totalWeights = 0 ∧
        (Verdict.ofAnalysis document.analyze).totalWeights = 0) := by
  obtain ⟨form, fits⟩ := document.exists_fits
  refine ⟨⟨form, fits, ?_⟩, ?_, ?_⟩
  · intro other fits'
    exact fits'.eq_ofStage?.trans fits.eq_ofStage?.symm
  · intro diagnostic member
    have stage := fits.stage_ne_scheduling member
    exact ⟨stage, mt Defect.code_eq_scheduling_iff.mp stage⟩
  · intro invalid
    change document.analyze.isValid = false at invalid
    refine ⟨fits.totalWeights_eq_zero invalid, ?_⟩
    rw [Verdict.ofAnalysis, invalid]
    rfl

/-- Two convolutions that do not fit the input before them, and a layer that does. -/
def misfits : Document where
  nodes := [
    .ofKind "image" .input ⟨[("shape", .array [.word 1, .word 8])]⟩,
    .ofKind "left" .conv2d
      ⟨[("in_channels", .word 1), ("kernel_size", .word 2), ("out_channels", .word 1)]⟩,
    .ofKind "right" .conv2d
      ⟨[("in_channels", .word 1), ("kernel_size", .word 3), ("out_channels", .word 1)]⟩,
    .ofKind "flat" .flatten .empty]
  edges := [⟨"image", "right"⟩, ⟨"image", "left"⟩, ⟨"image", "flat"⟩]

theorem analyze_form_misfits :
    (∃! form : Form, form.Fits misfits misfits.analyze) ∧
    (∃ diagnostic ∈ misfits.analyze.diagnostics, diagnostic.nodeId = some "left" ∧
      diagnostic.defect.stage ≠ .scheduling ∧ diagnostic.defect.code ≠ "T001") ∧
    (Verdict.ofAnalysis misfits.analyze).valid = false ∧
    misfits.analyze.totalWeights = 0 ∧ (Verdict.ofAnalysis misfits.analyze).totalWeights = 0 := by
  obtain ⟨form, stages, totals⟩ := analyze_form misfits
  have invalid : (Verdict.ofAnalysis misfits.analyze).valid = false := by decide +kernel
  have member : Diagnostic.ofNode "left" (.noShape (.rankMismatch .conv2d 4 [1, 8])) ∈
      misfits.analyze.diagnostics := by
    decide +kernel
  exact ⟨form, ⟨_, member, rfl, stages _ member⟩, invalid, totals invalid⟩

end Document

end LayerGraph
