import LayerGraph.Proofs.Forms
import LayerGraph.Proofs.Wiring.Renaming

/-!
# Renamed ids

Ids are compared with each other and with the empty text, and beyond that they are only repeated in
what is reported. So a document in which ids are renamed, different ones differently and the empty
one not at all, has the analysis of the document with the ids in it renamed.
-/

namespace LayerGraph

def Table.rename {β : Type} (r : String → String) (table : List (String × β)) :
    List (String × β) :=
  Table.ofList (table.map fun pair => (r pair.1, pair.2))

def Node.rename (r : String → String) (node : Node) : Node :=
  { node with id := r node.id }

def Edge.rename (r : String → String) (edge : Edge) : Edge :=
  ⟨r edge.source, r edge.target⟩

def Document.rename (r : String → String) (document : Document) : Document :=
  ⟨document.nodes.map (Node.rename r), document.edges.map (Edge.rename r)⟩

def Graph.rename (r : String → String) (graph : Graph) : Graph :=
  ⟨graph.nodes.map (Node.rename r), graph.edges.map (Edge.rename r)⟩

/-- Only defects of edges quote ids. -/
def Defect.rename (r : String → String) : Defect → Defect
  | .unknownSource id => .unknownSource (r id)
  | .unknownTarget id => .unknownTarget (r id)
  | defect => defect

def Diagnostic.rename (r : String → String) (diagnostic : Diagnostic) : Diagnostic :=
  ⟨diagnostic.defect.rename r, diagnostic.nodeId.map r⟩

def LayerName.rename (r : String → String) (name : LayerName) : LayerName :=
  { name with nodeId := r name.nodeId }

def Inference.rename (r : String → String) (inference : Inference) : Inference :=
  ⟨Table.rename r inference.shapes, inference.failures.map fun failure => (r failure.1, failure.2)⟩

def Analysis.rename (r : String → String) (analysis : Analysis) : Analysis where
  diagnostics := analysis.diagnostics.map (Diagnostic.rename r)
  order := analysis.order.map r
  shapes := Table.rename r analysis.shapes
  layerNames := analysis.layerNames.map (LayerName.rename r)
  totalWeights := analysis.totalWeights

namespace Defect

variable (r : String → String) (defect : Defect)

theorem code_rename : (defect.rename r).code = defect.code := by
  cases defect <;> rfl

theorem stage_rename : (defect.rename r).stage = defect.stage := by
  cases defect <;> rfl

theorem rename_eq_self {r : String → String} {defect : Defect} (code : defect.code ≠ "S003") :
    defect.rename r = defect := by
  cases defect with
  | unknownSource => exact absurd rfl code
  | unknownTarget => exact absurd rfl code
  | _ => rfl

theorem rename_of_stage_nodes {r : String → String} {defect : Defect}
    (stage : defect.stage = .nodes) : defect.rename r = defect := by
  refine rename_eq_self fun code => ?_
  simpa [code] using code_of_stage_nodes stage

end Defect

theorem Node.kind?_rename (r : String → String) (node : Node) :
    (node.rename r).kind? = node.kind? :=
  rfl

theorem Graph.wiring_rename (r : String → String) (graph : Graph) :
    (graph.rename r).wiring = graph.wiring.map r := by
  simp [wiring, rename, Wiring.map, ids, Node.rename, Edge.rename, Function.comp_def]

theorem Graph.totalWeights_rename (r : String → String) (graph : Graph) :
    (graph.rename r).totalWeights = graph.totalWeights := by
  rw [totalWeights, rename, List.filterMap_map]
  rfl

theorem Document.inputDefects_rename (r : String → String) (document : Document) :
    (document.rename r).inputDefects = document.inputDefects.map (Diagnostic.rename r) := by
  have count :
      (document.rename r).nodes.countP Node.isInput = document.nodes.countP Node.isInput := by
    rw [rename, List.countP_map]
    rfl
  rw [inputDefects, count, inputDefects]
  rcases document.nodes.countP Node.isInput with _ | _ | count <;> rfl

theorem Inference.diagnostics_rename (r : String → String) (inference : Inference) :
    (inference.rename r).diagnostics = inference.diagnostics.map (Diagnostic.rename r) := by
  simp [diagnostics, rename, Diagnostic.rename, Diagnostic.ofNode, Defect.rename]

theorem Document.analyze_shapes_sorted (document : Document) :
    Table.Sorted document.analyze.shapes := by
  have ends := document.analyze_ends
  generalize document.analyze = analysis at ends
  cases ends with
  | empty | rejected => exact .nil
  | misshapen | accepted => exact Graph.inferShapes_sorted _ _

section

variable {r : String → String} (injective : Function.Injective r)

include injective

namespace Table

variable {β : Type} {table : List (String × β)}

theorem rename_perm (distinct : (table.map (·.1)).Nodup) :
    (rename r table).Perm (table.map fun pair => (r pair.1, pair.2)) := by
  apply ofList_perm
  simpa only [List.map_map, Function.comp_def] using distinct.map injective

theorem names_rename (distinct : (table.map (·.1)).Nodup) :
    ((rename r table).map (·.1)).Perm ((table.map (·.1)).map r) := by
  simpa only [List.map_map, Function.comp_def] using (rename_perm injective distinct).map (·.1)

theorem get?_rename (distinct : (table.map (·.1)).Nodup) (name : String) :
    get? (r name) (rename r table) = get? name table := by
  have sorted : Sorted (rename r table) := sorted_ofList _
  refine Option.ext fun x => ?_
  rw [← mem_iff_get? sorted.nodup_names, (rename_perm injective distinct).mem_iff,
    ← mem_iff_get? distinct]
  simp [injective.eq_iff]

/-- Sorted again, a table with one more entry is the renamed one with this entry renamed. -/
theorem rename_insert (sorted : Sorted table) (name : String) (x : β) :
    rename r (insert name x table) = insert (r name) x (rename r table) := by
  have distinct := sorted.nodup_names
  have distinct' := (sorted_insert sorted name x).nodup_names
  refine Sorted.ext (sorted_ofList _) (sorted_insert (sorted_ofList _) _ _) fun other => ?_
  by_cases renamed : ∃ id, r id = other
  · obtain ⟨id, rfl⟩ := renamed
    rw [get?_rename injective distinct', get?_insert, get?_insert, get?_rename injective distinct]
    simp only [injective.eq_iff]
  · have foreign (names : List String) : other ∉ names.map r := by
      intro member
      obtain ⟨id, _, same⟩ := List.mem_map.mp member
      exact renamed ⟨id, same⟩
    have absent {table : List (String × β)} (distinct : (table.map (·.1)).Nodup) :
        get? other (rename r table) = none := by
      rw [get?_eq_none_iff, (names_rename injective distinct).mem_iff]
      exact foreign _
    have apart : r name ≠ other := fun same => renamed ⟨name, same⟩
    rw [absent distinct', get?_insert, if_neg apart, absent distinct]

end Table

namespace Graph

variable (graph : Graph)

theorem node?_rename (id : String) :
    (graph.rename r).node? (r id) = (graph.node? id).map (Node.rename r) := by
  have same : (fun node : Node => decide (node.id = r id)) ∘ Node.rename r =
      fun node => decide (node.id = id) :=
    funext fun node => decide_eq_decide.mpr injective.eq_iff
  rw [node?, rename, List.find?_map, same, node?]

theorem kind?_rename (id : String) : (graph.rename r).kind? (r id) = graph.kind? id := by
  rw [kind?, node?_rename injective, kind?, Option.bind_map]
  rfl

theorem declares_rename (id : String) :
    (graph.rename r).declares (r id) = graph.declares id := by
  rw [Bool.eq_iff_iff, declares_iff, declares_iff]
  have ids : (graph.rename r).ids = graph.ids.map r := by
    simp [Graph.ids, rename, Node.rename, Function.comp_def]
  rw [ids, List.mem_map_of_injective injective]

theorem edgeDefects_rename (edge : Edge) : (graph.rename r).edgeDefects (edge.rename r) =
    (graph.edgeDefects edge).map (Diagnostic.rename r) := by
  unfold edgeDefects
  rw [Edge.rename, declares_rename injective, declares_rename injective]
  split
  · rfl
  · split <;> rfl

theorem arityDefects_rename (node : Node) : (graph.rename r).arityDefects (node.rename r) =
    (graph.arityDefects node).map (Diagnostic.rename r) := by
  have counted : (graph.rename r).wiring.incoming (node.rename r).id =
      graph.wiring.incoming node.id := by
    rw [wiring_rename]
    exact Wiring.incoming_map injective _ _
  unfold arityDefects
  rw [counted, Node.kind?_rename]
  cases node.kind? with
  | none => rfl
  | some kind =>
    dsimp only
    cases kind.schema.inputs with
    | variadic => rfl
    | exactly expected =>
      dsimp only
      split
      · rfl
      · split <;> rfl

end Graph

theorem repeated_rename (seen found strings : List String) :
    repeated (seen.map r) (found.map r) (strings.map r) = (repeated seen found strings).map r := by
  induction strings generalizing seen found with
  | nil => rfl
  | cons x rest ih =>
    simp only [List.map_cons, repeated, List.contains_eq_mem, List.mem_map_of_injective injective]
    split
    · split
      · exact ih seen found
      · rw [List.map_cons, ← ih seen (x :: found), List.map_cons]
    · rw [← ih (x :: seen) found, List.map_cons]

namespace Graph

variable (graph : Graph)

theorem operands?_rename {shapes : List (String × Shape)} (distinct : (shapes.map (·.1)).Nodup)
    (id : String) (kind : Kind) :
    (graph.rename r).operands? (Table.rename r shapes) (r id) kind =
      graph.operands? shapes id kind := by
  unfold operands?
  rw [wiring_rename, Wiring.predecessors_map injective]
  split
  · rfl
  · cases graph.wiring.predecessors id with
    | nil => rfl
    | cons source rest =>
      rw [List.map_cons]
      dsimp only
      rw [Table.get?_rename injective distinct]

theorem outcome?_rename {shapes : List (String × Shape)} (distinct : (shapes.map (·.1)).Nodup)
    (id : String) : (graph.rename r).outcome? (Table.rename r shapes) (r id) =
      graph.outcome? shapes id := by
  unfold outcome?
  simp only [node?_rename injective, operands?_rename injective graph distinct, Option.bind_map]
  rfl

theorem infer_rename {done : Inference} (sorted : Table.Sorted done.shapes) (id : String) :
    (graph.rename r).infer (done.rename r) (r id) = (graph.infer done id).rename r := by
  have outcome : (graph.rename r).outcome? (done.rename r).shapes (r id) =
      graph.outcome? done.shapes id :=
    outcome?_rename injective graph sorted.nodup_names id
  rw [infer_eq, infer_eq, outcome]
  rcases graph.outcome? done.shapes id with _ | error | shape
  · rfl
  · simp [Inference.rename]
  · simp [Inference.rename, Table.rename_insert injective sorted]

theorem inferShapes_rename (order : List String) :
    (graph.rename r).inferShapes (order.map r) = (graph.inferShapes order).rename r := by
  have run (done : Inference) (sorted : Table.Sorted done.shapes) :
      (order.map r).foldl (graph.rename r).infer (done.rename r) =
        (order.foldl graph.infer done).rename r := by
    induction order generalizing done with
    | nil => rfl
    | cons id rest ih =>
      rw [List.map_cons, List.foldl_cons, List.foldl_cons, infer_rename injective graph sorted]
      exact ih _ (infer_sorted graph sorted id)
  exact run ⟨[], []⟩ .nil

theorem layerNames_rename (order : List String) :
    (graph.rename r).layerNames (order.map r) =
      (graph.layerNames order).map (LayerName.rename r) := by
  have after (named : List Kind) : (graph.rename r).layerNamesAfter named (order.map r) =
      (graph.layerNamesAfter named order).map (LayerName.rename r) := by
    induction order generalizing named with
    | nil => rfl
    | cons id rest ih =>
      rw [List.map_cons, layerNamesAfter, layerNamesAfter, kind?_rename injective]
      cases graph.kind? id with
      | none => exact ih named
      | some kind =>
        dsimp only
        split
        · exact ih named
        · rw [List.map_cons, ih]
          rfl
  exact after []

end Graph

variable (empty : r "" = "")

include empty

theorem rename_eq_empty_iff (id : String) : r id = "" ↔ id = "" := by
  rw [← injective.eq_iff (a := id), empty]

theorem Node.diagnostics_rename (node : Node) :
    (node.rename r).diagnostics = node.diagnostics.map (Diagnostic.rename r) := by
  unfold diagnostics
  rw [kind?_rename]
  simp only [rename, rename_eq_empty_iff injective empty]
  split
  · rfl
  · cases node.kind? with
    | none => rfl
    | some kind =>
      dsimp only
      rw [List.map_map]
      refine List.map_congr_left fun defect member => ?_
      have stage : defect.stage = .nodes := by
        rcases List.mem_append.mp member with missing | domain
        · exact stage_of_mem_missingParams missing
        · exact stage_of_mem_domainDefects domain
      simp [Diagnostic.rename, Diagnostic.ofNode, Defect.rename_of_stage_nodes stage]

namespace Document

variable (document : Document)

theorem idDefects_rename :
    (document.rename r).idDefects = document.idDefects.map (Diagnostic.rename r) := by
  have ids : (document.rename r).nodes.map (·.id) = (document.nodes.map (·.id)).map r := by
    simp [rename, Node.rename, Function.comp_def]
  have named : ((document.rename r).nodes.map (·.id)).filter (· ≠ "") =
      ((document.nodes.map (·.id)).filter (· ≠ "")).map r := by
    rw [ids, List.filter_map]
    simp only [Function.comp_def, ne_eq, rename_eq_empty_iff injective empty]
  have again := repeated_rename injective [] [] ((document.nodes.map (·.id)).filter (· ≠ ""))
  rw [idDefects, named, idDefects, List.map_map]
  exact (congrArg _ again).trans (List.map_map ..)

end Document

namespace Graph

theorem firstDeclarations_rename (seen : List String) (nodes : List Node) :
    firstDeclarations (seen.map r) (nodes.map (Node.rename r)) =
      (firstDeclarations seen nodes).map (Node.rename r) := by
  induction nodes generalizing seen with
  | nil => rfl
  | cons node rest ih =>
    simp only [List.map_cons, firstDeclarations, Node.rename, rename_eq_empty_iff injective empty,
      List.contains_eq_mem, List.mem_map_of_injective injective]
    split
    · exact ih seen
    · rw [List.map_cons, ← ih (node.id :: seen), List.map_cons]
      rfl

theorem ofDocument_rename (document : Document) :
    ofDocument (document.rename r) = (ofDocument document).rename r := by
  have nodes := firstDeclarations_rename injective empty [] document.nodes
  rw [ofDocument, Document.rename, ofDocument, rename]
  dsimp only
  rw [List.map_nil] at nodes
  rw [nodes, List.filter_map]
  simp [Function.comp_def, Node.rename, Edge.rename, injective.eq_iff]

theorem hasCycle_rename (document : Document) :
    (ofDocument (document.rename r)).wiring.hasCycle = (ofDocument document).wiring.hasCycle := by
  have decides (document : Document) : (ofDocument document).wiring.hasCycle = true ↔
      (ofDocument document).wiring.schedule? = none := by
    have wellFormed := wellFormed_ofDocument document
    rw [Wiring.hasCycle_iff_cyclic wellFormed, Wiring.schedule?_eq_none_iff_cyclic wellFormed]
  rw [Bool.eq_iff_iff, decides, decides, ofDocument_rename injective empty, wiring_rename,
    Wiring.schedule?_map injective, Option.map_eq_none_iff]

theorem diagnostics_rename (document : Document) :
    (ofDocument (document.rename r)).diagnostics (document.rename r) =
      ((ofDocument document).diagnostics document).map (Diagnostic.rename r) := by
  have cycles : (ofDocument (document.rename r)).cycleDefects =
      (ofDocument document).cycleDefects.map (Diagnostic.rename r) := by
    rw [cycleDefects, hasCycle_rename injective empty, cycleDefects]
    split <;> rfl
  have nodes : (document.rename r).nodes.flatMap Node.diagnostics =
      (document.nodes.flatMap Node.diagnostics).map (Diagnostic.rename r) := by
    rw [Document.rename, List.flatMap_map, List.map_flatMap]
    exact List.flatMap_congr fun node _ => node.diagnostics_rename injective empty
  have edges : (document.rename r).edges.flatMap ((ofDocument document).rename r).edgeDefects =
      (document.edges.flatMap (ofDocument document).edgeDefects).map (Diagnostic.rename r) := by
    rw [Document.rename, List.flatMap_map, List.map_flatMap]
    exact List.flatMap_congr fun edge _ => edgeDefects_rename injective _ edge
  have arities : ((ofDocument document).rename r).nodes.flatMap
        ((ofDocument document).rename r).arityDefects =
      ((ofDocument document).nodes.flatMap (ofDocument document).arityDefects).map
        (Diagnostic.rename r) := by
    rw [rename, List.flatMap_map, List.map_flatMap]
    exact List.flatMap_congr fun node _ => arityDefects_rename injective _ node
  simp only [diagnostics, structuralDiagnostics, List.map_append]
  rw [cycles, nodes, ofDocument_rename injective empty, edges, arities,
    document.inputDefects_rename r, document.idDefects_rename injective empty]

end Graph

namespace Document

variable (document : Document)

/-- The analysis, stage by stage, of a document with renamed ids. -/
theorem rename_analyze : document.analyze.rename r = (document.rename r).analyze := by
  have nodes : (document.rename r).nodes.isEmpty = document.nodes.isEmpty := List.isEmpty_map
  unfold analyze
  dsimp only
  rw [nodes, Graph.diagnostics_rename injective empty, Graph.ofDocument_rename injective empty,
    Graph.wiring_rename, Wiring.schedule?_map injective, List.isEmpty_map]
  split
  · rfl
  · split
    · rfl
    · rcases (Graph.ofDocument document).wiring.schedule? with _ | order
      · rfl
      · rw [Option.map_some]
        dsimp only
        have failures (inference : Inference) :
            (inference.rename r).failures.isEmpty = inference.failures.isEmpty := List.isEmpty_map
        rw [Graph.inferShapes_rename injective, failures, Inference.diagnostics_rename,
          Graph.layerNames_rename injective, Graph.totalWeights_rename]
        split <;> rfl

/-- Where ids are renamed, the analysis is the same with the ids in it renamed. The shapes of the
nodes are found under the new ids, and what is said of a defect differs at most where an edge is
quoted. -/
theorem analyze_rename :
    (document.rename r).analyze = document.analyze.rename r ∧
    ((document.rename r).analyze.shapes.map (·.1)).Perm
      ((document.analyze.shapes.map (·.1)).map r) ∧
    (∀ id, Table.get? (r id) (document.rename r).analyze.shapes =
      Table.get? id document.analyze.shapes) ∧
    ∀ defect : Defect, (defect.rename r).code = defect.code ∧
      (defect.rename r).stage = defect.stage ∧
      (defect.code ≠ "S003" → (defect.rename r).message = defect.message) := by
  have distinct := document.analyze_shapes_sorted.nodup_names
  rw [← document.rename_analyze injective empty]
  refine ⟨rfl, Table.names_rename injective distinct, Table.get?_rename injective distinct,
    fun defect => ⟨defect.code_rename r, defect.stage_rename r, fun code => ?_⟩⟩
  rw [Defect.rename_eq_self code]

end Document

end

def mirror (text : String) : String :=
  String.ofList text.toList.reverse

theorem mirror_injective : Function.Injective mirror := fun _ _ same =>
  String.toList_injective (List.reverse_injective (String.ofList_injective same))

namespace Document

/-- Ids that look like numbers, and that are sorted differently when they are mirrored. -/
def numbered : Document where
  nodes := [
    .ofKind "21" .relu .empty,
    .ofKind "1e3" .linear ⟨[("in_features", .word 8), ("out_features", .word 4)]⟩,
    .ofKind "03" .input ⟨[("shape", .array [.word 1, .word 8])]⟩]
  edges := [⟨"03", "1e3"⟩, ⟨"1e3", "21"⟩]

/-- The same with a node without an id, an id declared again and edges that lead nowhere. -/
def muddled : Document where
  nodes := numbered.nodes ++ [.ofKind "" .add .empty, .ofKind "21" .softmax .empty]
  edges := numbered.edges ++ [⟨"21", "12"⟩, ⟨"", "21"⟩]

theorem analyze_rename_mirror :
    (Function.Injective mirror ∧ mirror "" = "") ∧
    (numbered.rename mirror).analyze = numbered.analyze.rename mirror ∧
    (muddled.rename mirror).analyze = muddled.analyze.rename mirror := by
  have empty : mirror "" = "" := by decide
  exact ⟨⟨mirror_injective, empty⟩, (analyze_rename mirror_injective empty numbered).1,
    (analyze_rename mirror_injective empty muddled).1⟩

end Document

end LayerGraph
