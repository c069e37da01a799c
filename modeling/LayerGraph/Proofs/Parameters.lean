import LayerGraph.Analysis
import LayerGraph.Proofs.Lookup
import Mathlib.Data.List.Forall2

/-!
# Parameters that an analysis reads

An analysis reads a parameter of a node only if the kind of the node recognizes its name, and it
takes null for a parameter that is not set. So it says the same of two documents whose nodes agree
in this, one by one.
-/

namespace LayerGraph

namespace Params

def without (params : Params) (name : String) : Params :=
  ⟨params.members.filter fun member => member.1 ≠ name⟩

theorem get?_without_self (params : Params) (name : String) :
    (params.without name).get? name = none := by
  rw [get?, without, Table.get?_filter_ne, if_pos rfl]

theorem get?_without_of_ne (params : Params) {name other : String} (apart : other ≠ name) :
    (params.without name).get? other = params.get? other := by
  rw [get?, get?, without, Table.get?_filter_ne, if_neg apart]

section Reading

variable {params other : Params} {name : String} (same : params.get? name = other.get? name)

include same

theorem isSet_congr : params.isSet name = other.isSet name := by
  rw [isSet, isSet, same]

theorem integer?_congr : params.integer? name = other.integer? name := by
  rw [integer?, integer?, number?, number?, same]

theorem integerOrDefault?_congr (schema : Schema) :
    params.integerOrDefault? schema name = other.integerOrDefault? schema name := by
  rw [integerOrDefault?, integerOrDefault?, isSet_congr same, integer?_congr same]

theorem count_congr : params.count name = other.count name := by
  rw [count, count, integer?_congr same]

theorem positiveParam_congr :
    Shape.positiveParam params name = Shape.positiveParam other name := by
  rw [Shape.positiveParam, Shape.positiveParam, integer?_congr same]

theorem positiveDefects_congr :
    Node.positiveDefects params name = Node.positiveDefects other name := by
  rw [Node.positiveDefects, Node.positiveDefects, same]

end Reading

end Params

namespace Kind

/-- A kind needs only parameters that it recognizes. -/
theorem recognizes_of_required {kind : Kind} {name : String}
    (required : name ∈ kind.schema.required) : kind.schema.recognizes name = true := by
  have all : ∀ kind ∈ Kind.all, ∀ name ∈ kind.schema.required,
      kind.schema.recognizes name = true := by
    decide
  exact all kind kind.mem_all name required

def ReadsAlike (kind : Kind) (params other : Params) : Prop :=
  ∀ name, kind.schema.recognizes name = true → params.get? name = other.get? name

namespace ReadsAlike

open Params

variable {kind : Kind} {params other : Params} (alike : kind.ReadsAlike params other)

include alike

theorem missingParams_eq : Node.missingParams kind params = Node.missingParams kind other := by
  unfold Node.missingParams
  congr 1
  refine List.filter_congr fun name required => ?_
  rw [isSet_congr (alike name (recognizes_of_required required))]

theorem domainDefects_eq : Node.domainDefects kind params = Node.domainDefects kind other := by
  have positive (names : List String)
      (known : ∀ name ∈ names, kind.schema.recognizes name = true) :
      names.flatMap (Node.positiveDefects params) = names.flatMap (Node.positiveDefects other) :=
    List.flatMap_congr fun name member => positiveDefects_congr (alike name (known name member))
  cases kind
  case linear => exact positive _ (by decide)
  case conv2d => exact positive _ (by decide)
  case dropout =>
    rw [Node.domainDefects, Node.domainDefects, Node.probabilityDefects, Node.probabilityDefects,
      alike "p" (by decide)]
  all_goals rfl

theorem outputShape_eq (operands : List Shape) :
    kind.outputShape operands params = kind.outputShape operands other := by
  cases kind
  case input =>
    rw [outputShape, outputShape, Shape.declared, Shape.declared, alike "shape" (by decide)]
  case linear =>
    have features := alike "out_features" (by decide)
    simp only [outputShape, Shape.linear, positiveParam_congr features]
  case conv2d =>
    have channels := alike "out_channels" (by decide)
    have kernel := alike "kernel_size" (by decide)
    have stride := alike "stride" (by decide)
    have padding := alike "padding" (by decide)
    simp only [outputShape, Shape.conv2d, positiveParam_congr channels, positiveParam_congr kernel,
      integerOrDefault?_congr stride, integerOrDefault?_congr padding]
  all_goals rfl

theorem weightCount_eq : kind.weightCount params = kind.weightCount other := by
  cases kind
  case linear =>
    rw [weightCount, weightCount, count_congr (alike "in_features" (by decide)),
      count_congr (alike "out_features" (by decide))]
  case conv2d =>
    rw [weightCount, weightCount, count_congr (alike "in_channels" (by decide)),
      count_congr (alike "out_channels" (by decide)), count_congr (alike "kernel_size" (by decide))]
  case batchNorm =>
    rw [weightCount, weightCount, count_congr (alike "num_features" (by decide))]
  all_goals rfl

end ReadsAlike

end Kind

/-- Nodes of the same id and type, in which the same can be read under all names that their kind
recognizes. A node of no known kind is not read at all. -/
structure Node.ReadsAlike (node other : Node) : Prop where
  id : node.id = other.id
  typeName : node.typeName = other.typeName
  params : ∀ kind, node.kind? = some kind → kind.ReadsAlike node.params other.params

namespace Node.ReadsAlike

variable {node other : Node} (alike : node.ReadsAlike other)

include alike

theorem kind?_eq : node.kind? = other.kind? := by
  rw [kind?, kind?, alike.typeName]

theorem isInput_eq : node.isInput = other.isInput := by
  rw [isInput, isInput, alike.kind?_eq]

theorem diagnostics_eq : node.diagnostics = other.diagnostics := by
  rw [diagnostics, diagnostics, ← alike.id, ← alike.typeName, ← alike.kind?_eq]
  cases known : node.kind? with
  | none => rfl
  | some kind =>
    have params := alike.params kind known
    simp only [params.missingParams_eq, params.domainDefects_eq]

theorem weightCount?_eq : (node.kind?.map fun kind => kind.weightCount node.params) =
    other.kind?.map fun kind => kind.weightCount other.params := by
  rw [← alike.kind?_eq]
  refine Option.map_congr fun kind known => ?_
  exact (alike.params kind known).weightCount_eq

end Node.ReadsAlike

/-- What is the same of each two elements gives the same list. -/
theorem map_eq_map_of_forall₂ {α β : Type} {related : α → α → Prop} {f g : α → β}
    {list other : List α} (all : List.Forall₂ related list other)
    (same : ∀ x y, related x y → f x = g y) : list.map f = other.map g := by
  induction all with
  | nil => rfl
  | cons first _ ih => rw [List.map_cons, List.map_cons, same _ _ first, ih]

structure Graph.ReadsAlike (graph other : Graph) : Prop where
  nodes : List.Forall₂ Node.ReadsAlike graph.nodes other.nodes
  edges : graph.edges = other.edges

structure Document.ReadsAlike (document other : Document) : Prop where
  nodes : List.Forall₂ Node.ReadsAlike document.nodes other.nodes
  edges : document.edges = other.edges

namespace Graph

theorem forall₂_firstDeclarations (seen : List String) {nodes others : List Node}
    (alike : List.Forall₂ Node.ReadsAlike nodes others) :
    List.Forall₂ Node.ReadsAlike (firstDeclarations seen nodes) (firstDeclarations seen others) := by
  induction alike generalizing seen with
  | nil => exact .nil
  | cons first _ ih =>
    rw [firstDeclarations, firstDeclarations, ← first.id]
    split
    · exact ih seen
    · exact .cons first (ih _)

theorem rel_find? {nodes others : List Node} (alike : List.Forall₂ Node.ReadsAlike nodes others)
    (id : String) : Option.Rel Node.ReadsAlike (nodes.find? fun node => node.id = id)
      (others.find? fun node => node.id = id) := by
  induction alike with
  | nil => exact .none
  | @cons node twin _ _ first _ ih =>
    rw [List.find?_cons, List.find?_cons, ← first.id]
    split
    · exact .some first
    · exact ih

theorem readsAlike_ofDocument {document other : Document} (alike : document.ReadsAlike other) :
    (ofDocument document).ReadsAlike (ofDocument other) := by
  have nodes := forall₂_firstDeclarations [] alike.nodes
  have ids := map_eq_map_of_forall₂ (f := Node.id) nodes fun _ _ same => same.id
  have declared (id : String) :
      (firstDeclarations [] document.nodes).any (fun node => node.id = id) =
        (firstDeclarations [] other.nodes).any fun node => node.id = id := by
    simpa only [List.any_map, Function.comp_def] using congrArg (·.any (· = id)) ids
  refine ⟨nodes, ?_⟩
  rw [ofDocument, ofDocument, alike.edges]
  simp only [declared]

namespace ReadsAlike

variable {graph other : Graph} (alike : graph.ReadsAlike other)

include alike

theorem ids_eq : graph.ids = other.ids :=
  map_eq_map_of_forall₂ alike.nodes fun _ _ same => same.id

theorem wiring_eq : graph.wiring = other.wiring := by
  rw [wiring, wiring, alike.ids_eq, alike.edges]

theorem node? (id : String) :
    Option.Rel Node.ReadsAlike (graph.node? id) (other.node? id) :=
  rel_find? alike.nodes id

theorem kind?_eq : graph.kind? = other.kind? := by
  funext id
  have related := alike.node? id
  rw [kind?, kind?]
  generalize graph.node? id = node, other.node? id = twin at related
  cases related with
  | none => rfl
  | some same => exact same.kind?_eq

theorem edgeDefects_eq : graph.edgeDefects = other.edgeDefects := by
  have declares : graph.declares = other.declares := by
    funext id
    rw [Graph.declares, Graph.declares, index?, index?, alike.ids_eq]
  funext edge
  rw [edgeDefects, edgeDefects, declares]

theorem arityDefects_eq : graph.nodes.flatMap graph.arityDefects =
    other.nodes.flatMap other.arityDefects := by
  rw [List.flatMap_def, List.flatMap_def]
  refine congrArg _ (map_eq_map_of_forall₂ alike.nodes fun node twin same => ?_)
  rw [arityDefects, arityDefects, same.kind?_eq, same.id, alike.wiring_eq]

theorem infer_eq : graph.infer = other.infer := by
  funext done id
  have related := alike.node? id
  have operands : graph.operands? = other.operands? := by
    funext shapes id kind
    rw [operands?, operands?, alike.wiring_eq]
  rw [infer, infer, operands]
  generalize graph.node? id = node, other.node? id = twin at related
  cases related with
  | none => rfl
  | @some node twin same =>
    simp only [← same.kind?_eq]
    cases known : node.kind? with
    | none => rfl
    | some kind => simp only [(same.params kind known).outputShape_eq]

theorem inferShapes_eq : graph.inferShapes = other.inferShapes := by
  funext order
  rw [inferShapes, inferShapes, alike.infer_eq]

theorem layerNames_eq : graph.layerNames = other.layerNames := by
  have after (named : List Kind) (order : List String) :
      graph.layerNamesAfter named order = other.layerNamesAfter named order := by
    induction order generalizing named with
    | nil => rfl
    | cons id rest ih =>
      rw [layerNamesAfter, layerNamesAfter, alike.kind?_eq]
      simp only [ih]
  funext order
  exact after [] order

theorem totalWeights_eq : graph.totalWeights = other.totalWeights := by
  have counts := map_eq_map_of_forall₂ alike.nodes fun _ _ same => same.weightCount?_eq
  have present (nodes : List Node) :
      nodes.filterMap (fun node => node.kind?.map fun kind => kind.weightCount node.params) =
        (nodes.map fun node => node.kind?.map fun kind => kind.weightCount node.params).filterMap
          id := by
    rw [List.filterMap_map]
    rfl
  rw [totalWeights, totalWeights, present, present, counts]

end ReadsAlike

end Graph

namespace Document.ReadsAlike

variable {document other : Document} (alike : document.ReadsAlike other)

include alike

theorem inputDefects_eq : document.inputDefects = other.inputDefects := by
  have inputs := map_eq_map_of_forall₂ alike.nodes fun _ _ same => same.isInput_eq
  have count := congrArg (List.countP id) inputs
  rw [List.countP_map, List.countP_map] at count
  change document.nodes.countP Node.isInput = other.nodes.countP Node.isInput at count
  rw [inputDefects, inputDefects, count]

theorem idDefects_eq : document.idDefects = other.idDefects := by
  have ids := map_eq_map_of_forall₂ alike.nodes fun _ _ same => same.id
  rw [idDefects, idDefects, ids]

theorem diagnostics_eq : (Graph.ofDocument document).diagnostics document =
    (Graph.ofDocument other).diagnostics other := by
  have graph := Graph.readsAlike_ofDocument alike
  have nodes : document.nodes.flatMap Node.diagnostics = other.nodes.flatMap Node.diagnostics := by
    rw [List.flatMap_def, List.flatMap_def]
    exact congrArg _ (map_eq_map_of_forall₂ alike.nodes fun _ _ same => same.diagnostics_eq)
  have cycles : (Graph.ofDocument document).cycleDefects =
      (Graph.ofDocument other).cycleDefects := by
    rw [Graph.cycleDefects, Graph.cycleDefects, graph.wiring_eq]
  rw [Graph.diagnostics, Graph.diagnostics, Graph.structuralDiagnostics,
    Graph.structuralDiagnostics, nodes, alike.inputDefects_eq, alike.idDefects_eq,
    graph.edgeDefects_eq, alike.edges, graph.arityDefects_eq, cycles]

/-- Documents that read alike have one analysis. -/
theorem analyze_eq : document.analyze = other.analyze := by
  have graph := Graph.readsAlike_ofDocument alike
  have empty : document.nodes.isEmpty = other.nodes.isEmpty := by
    rw [Bool.eq_iff_iff, List.isEmpty_iff_length_eq_zero, List.isEmpty_iff_length_eq_zero,
      alike.nodes.length_eq]
  unfold analyze
  dsimp only
  rw [empty, alike.diagnostics_eq, graph.wiring_eq, graph.inferShapes_eq, graph.layerNames_eq,
    graph.totalWeights_eq]

end Document.ReadsAlike

namespace Document

def withParams (document : Document) (index : Nat) (params : Params) : Document :=
  { document with nodes := document.nodes.modify index fun node => { node with params } }

variable {document : Document} {index : Nat} {node : Node}

theorem withParams_self (place : document.nodes[index]? = some node) :
    document.withParams index node.params = document := by
  have kept : document.nodes.modify index (fun found => { found with params := node.params }) =
      document.nodes := by
    refine List.ext_getElem? fun i => ?_
    rw [List.getElem?_modify]
    by_cases here : index = i
    · subst here
      simp [place]
    · simp [here]
  rw [withParams, kept]

theorem readsAlike_withParams {params other : Params} (place : document.nodes[index]? = some node)
    (alike : ∀ kind, node.kind? = some kind → kind.ReadsAlike params other) :
    (document.withParams index params).ReadsAlike (document.withParams index other) := by
  refine ⟨List.forall₂_iff_get.mpr ⟨by simp [withParams], fun i _ _ => ?_⟩, rfl⟩
  simp only [withParams, List.get_eq_getElem, List.getElem_modify]
  split
  · rename_i here
    subst here
    obtain ⟨_, same⟩ := List.getElem?_eq_some_iff.mp place
    exact ⟨rfl, rfl, fun kind known => alike kind (same ▸ known)⟩
  · exact ⟨rfl, rfl, fun _ _ _ _ => rfl⟩

/-- To set or to remove a parameter that the kind of a node does not recognize, whatever it is set
to, changes nothing in the analysis. For a node of no known kind this holds of all parameters. And
to set any parameter to null is to remove it. -/
theorem analyze_unrecognized (document : Document) {index : Nat} {node : Node}
    (place : document.nodes[index]? = some node) (name : String) :
    ((∀ kind, node.kind? = some kind → kind.schema.recognizes name = false) →
      (∀ x, (document.withParams index (node.params.set name x)).analyze = document.analyze) ∧
      (document.withParams index (node.params.without name)).analyze = document.analyze) ∧
    (document.withParams index (node.params.set name .null)).analyze =
      (document.withParams index (node.params.without name)).analyze := by
  refine ⟨fun unrecognized => ?_, ?_⟩
  · have ignored (params : Params)
        (same : ∀ other, other ≠ name → params.get? other = node.params.get? other) :
        (document.withParams index params).analyze = document.analyze := by
      have alike : (document.withParams index params).ReadsAlike
          (document.withParams index node.params) := by
        refine readsAlike_withParams place fun kind known other recognized => same other ?_
        rintro rfl
        simp [unrecognized kind known] at recognized
      rw [alike.analyze_eq, withParams_self place]
    refine ⟨fun x => ?_, ?_⟩
    · exact ignored _ fun other apart => node.params.get?_set_of_ne (Ne.symm apart) x
    · exact ignored _ fun other apart => node.params.get?_without_of_ne apart
  · refine (readsAlike_withParams place fun _ _ other _ => ?_).analyze_eq
    by_cases same : other = name
    · rw [same, Params.get?_set_null, Params.get?_without_self]
    · rw [Params.get?_set_of_ne _ (Ne.symm same), Params.get?_without_of_ne _ same]

/-- A convolution that sets a parameter which only other kinds have. -/
def overloaded : Document where
  nodes := [
    .ofKind "image" .input ⟨[("shape", .array [.word 1, .word 1, .word 8, .word 8])]⟩,
    .ofKind "mask" .conv2d ⟨[("in_channels", .word 1), ("kernel_size", .word 2),
      ("num_features", .word 3), ("out_channels", .word 1), ("stride", .word 2)]⟩]
  edges := [⟨"image", "mask"⟩]

def untyped : Document :=
  { overloaded with nodes := overloaded.nodes ++ [⟨"output", "unheard", .empty⟩] }

theorem analyze_unrecognized_overloaded :
    (overloaded.nodes[1].kind? = some .conv2d ∧
      Kind.conv2d.schema.recognizes "num_features" = false ∧
      (overloaded.withParams 1 (overloaded.nodes[1].params.without "num_features")).analyze =
        overloaded.analyze) ∧
    (untyped.nodes[2].kind? = none ∧
      (untyped.withParams 2 (untyped.nodes[2].params.set "stride" (.bool true))).analyze =
        untyped.analyze) ∧
    (overloaded.withParams 1 (overloaded.nodes[1].params.set "stride" .null)).analyze =
      (overloaded.withParams 1 (overloaded.nodes[1].params.without "stride")).analyze := by
  have mask : overloaded.nodes[1].kind? = some .conv2d := by decide +kernel
  have foreign : Kind.conv2d.schema.recognizes "num_features" = false := by decide
  have unknown : untyped.nodes[2].kind? = none := by decide +kernel
  refine ⟨⟨mask, foreign, ?_⟩, ⟨unknown, ?_⟩, (analyze_unrecognized overloaded rfl "stride").2⟩
  · refine ((analyze_unrecognized overloaded rfl "num_features").1 fun kind known => ?_).2
    obtain rfl := Option.some.inj (mask.symm.trans known)
    exact foreign
  · refine ((analyze_unrecognized untyped rfl "stride").1 fun kind known => ?_).1 _
    exact nomatch unknown.symm.trans known

end Document

end LayerGraph
