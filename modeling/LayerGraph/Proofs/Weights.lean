import LayerGraph.Proofs.Number.Word
import LayerGraph.Proofs.Stages

/-!
# Totals of weights

The weights of a node as a natural number, read off its parameters without regard to the size of a
word. The total of a document is the sum of these numbers, stopped once at the greatest word. That
every product and sum is stopped on the way makes no difference, not even where a factor of zero
follows.
-/

namespace LayerGraph

namespace Params

/-- A parameter as a natural number. What is not a non-negative integer is zero. -/
def figure (params : Params) (name : String) : Nat :=
  match params.integer? name with
  | some n => n.toInt.toNat
  | none => 0

def Counts (params : Params) (name : String) : Prop :=
  ∃ n, params.integer? name = some n ∧ 0 < n ∧ (params.figure name : Int) = n.toInt

theorem counts_of_positive {params : Params} {name : String} (positive : params.Positive name) :
    params.Counts name := by
  obtain ⟨n, read, sign⟩ := positive
  have nonneg : 0 ≤ n.toInt := by
    rw [Int64.lt_iff_toInt_lt, Int64.toInt_zero] at sign
    exact sign.le
  refine ⟨n, read, sign, ?_⟩
  rw [figure, read]
  exact Int.toNat_of_nonneg nonneg

theorem toNat_count (params : Params) (name : String) :
    (params.count name).toNat = params.figure name := by
  unfold count figure
  cases params.integer? name with
  | none => rfl
  | some n =>
    by_cases sign : 0 ≤ n
    · simp only [sign, if_true]
      rw [Int64.toNat_toUInt64_of_le sign]
      rfl
    · have negative : n.toInt ≤ 0 := by
        rw [Int64.le_iff_toInt_le, Int64.toInt_zero] at sign
        omega
      simp only [sign, if_false, Int.toNat_of_nonpos negative]
      rfl

theorem count_eq_clip (params : Params) (name : String) :
    params.count name = Word.clip (params.figure name) := by
  rw [← toNat_count, Word.clip_toNat]

end Params

def Kind.weights (kind : Kind) (params : Params) : Nat :=
  match kind with
  | .linear =>
    params.figure "in_features" * params.figure "out_features" + params.figure "out_features"
  | .conv2d =>
    params.figure "in_channels" * params.figure "out_channels" * params.figure "kernel_size" ^ 2 +
      params.figure "out_channels"
  | .batchNorm => 2 * params.figure "num_features"
  | _ => 0

/-- The weights of a node, counted without a bound. A node of no known kind has none. -/
def Node.weights (node : Node) : Nat :=
  match node.kind? with
  | some kind => kind.weights node.params
  | none => 0

theorem Kind.weightCount_eq_clip (kind : Kind) (params : Params) :
    kind.weightCount params = Word.clip (kind.weights params) := by
  cases kind
  case linear =>
    simp only [weightCount, weights, Params.count_eq_clip, Word.mulClipped_clip,
      Word.addClipped_clip]
  case conv2d =>
    simp only [weightCount, weights, Params.count_eq_clip, Word.mulClipped_clip,
      Word.addClipped_clip, Nat.pow_two]
  case batchNorm =>
    have two : (2 : UInt64) = Word.clip 2 := by decide
    rw [weightCount, weights, Params.count_eq_clip, two, Word.mulClipped_clip, Nat.mul_comm]
  all_goals rfl

-- The product of the channels is stopped before the kernel makes it zero.
example : Kind.conv2d.weightCount ⟨[("in_channels", .word 1099511627776),
    ("kernel_size", .word 0), ("out_channels", .word 1099511627776)]⟩ = 1099511627776 := by
  decide +kernel

/-- To leave nodes of unknown kind out of the sum is as if they had no weights. -/
theorem Node.sum_filterMap_weights (nodes : List Node) :
    (nodes.filterMap fun node => node.kind?.map fun kind => kind.weights node.params).sum =
      (nodes.map weights).sum := by
  induction nodes with
  | nil => rfl
  | cons node rest ih =>
    rw [List.map_cons, List.sum_cons, weights]
    cases known : node.kind? with
    | none => simp only [List.filterMap_cons, known, Option.map_none, ih, Nat.zero_add]
    | some kind => simp only [List.filterMap_cons, known, Option.map_some, List.sum_cons, ih]

theorem Graph.totalWeights_eq_clip (graph : Graph) :
    graph.totalWeights = Word.clip (graph.nodes.map Node.weights).sum := by
  have clipped : (graph.nodes.filterMap fun node =>
      node.kind?.map fun kind => kind.weightCount node.params) =
      (graph.nodes.filterMap fun node =>
        node.kind?.map fun kind => kind.weights node.params).map Word.clip := by
    simp only [List.map_filterMap, Option.map_map, Function.comp_def, Kind.weightCount_eq_clip]
  rw [totalWeights, clipped]
  refine (Word.foldl_addClipped_clip _ 0).trans ?_
  rw [Nat.zero_add, Node.sum_filterMap_weights]

namespace Document

/-- The total is the sum of all weights, stopped once at the greatest word, in whatever order the
nodes are summed. With a valid document it is the sum over all nodes, and no figure of a linear
layer or a convolution is passed over. -/
theorem totalWeights_clips_once (document : Document) :
    (Graph.ofDocument document).totalWeights.toNat =
      min (2 ^ 64 - 1) ((Graph.ofDocument document).nodes.map Node.weights).sum ∧
    (∀ graph : Graph, graph.nodes.Perm (Graph.ofDocument document).nodes →
      graph.totalWeights = (Graph.ofDocument document).totalWeights) ∧
    (document.analyze.diagnostics = [] →
      document.analyze.totalWeights.toNat =
        min (2 ^ 64 - 1) (document.nodes.map Node.weights).sum ∧
      ∀ node ∈ document.nodes,
        (node.kind? = some .linear →
          ∀ name ∈ ["in_features", "out_features"], node.params.Counts name) ∧
        (node.kind? = some .conv2d →
          ∀ name ∈ ["in_channels", "out_channels", "kernel_size"], node.params.Counts name)) := by
  have clipped (graph : Graph) : graph.totalWeights.toNat =
      min (2 ^ 64 - 1) (graph.nodes.map Node.weights).sum := by
    rw [Graph.totalWeights_eq_clip, Word.toNat_clip, Nat.min_comm]
    rfl
  refine ⟨clipped _, ?_, ?_⟩
  · intro graph perm
    rw [Graph.totalWeights_eq_clip, Graph.totalWeights_eq_clip, (perm.map _).sum_eq]
  · intro valid
    obtain ⟨wellBuilt, order, _, _, analysis⟩ := analyze_of_valid valid
    refine ⟨?_, ?_⟩
    · rw [analysis, ← wellBuilt.nodes_ofDocument]
      exact clipped _
    · intro node member
      constructor
      · intro known name figure
        have configured := wellBuilt.configured_kind member known
        exact Params.counts_of_positive (configured.linear rfl name figure)
      · intro known name figure
        have configured := wellBuilt.configured_kind member known
        exact Params.counts_of_positive (configured.conv2d rfl name figure)

/-- Two linear layers. The weights of the first alone are more than a word can hold. -/
def wide : Document where
  nodes := [
    .ofKind "image" .input ⟨[("shape", .array [.word 1, .word 4])]⟩,
    .ofKind "wide" .linear
      ⟨[("in_features", .word 4294967296), ("out_features", .word 4294967296)]⟩,
    .ofKind "narrow" .linear ⟨[("in_features", .word 4), ("out_features", .word 2)]⟩]
  edges := [⟨"image", "wide"⟩, ⟨"wide", "narrow"⟩]

theorem totalWeights_clips_once_wide :
    wide.nodes.reverse.Perm (Graph.ofDocument wide).nodes ∧
    (Graph.mk wide.nodes.reverse []).totalWeights = (Graph.ofDocument wide).totalWeights ∧
    wide.analyze.diagnostics = [] ∧
    wide.analyze.totalWeights.toNat = min (2 ^ 64 - 1) (wide.nodes.map Node.weights).sum ∧
    wide.nodes[1].kind? = some .linear ∧ wide.nodes[1].params.Counts "in_features" := by
  have perm : wide.nodes.reverse.Perm (Graph.ofDocument wide).nodes := wide.nodes.reverse_perm
  have valid : wide.analyze.diagnostics = [] := by decide +kernel
  have linear : wide.nodes[1].kind? = some .linear := by decide +kernel
  have member : wide.nodes[1] ∈ wide.nodes := List.getElem_mem _
  obtain ⟨_, order, accepted⟩ := totalWeights_clips_once wide
  obtain ⟨total, figures⟩ := accepted valid
  exact ⟨perm, order ⟨wide.nodes.reverse, []⟩ perm, valid, total, linear,
    (figures _ member).1 linear "in_features" (by simp)⟩

end Document

end LayerGraph
