import LayerGraph.Proofs.Graph.Structure
import LayerGraph.Proofs.Graph.TieBreaking

/-!
# What the rules for structure report

The rules see a document in two ways, as it is declared and as a graph with first declarations and
resolved edges only. What they report can be told from the declarations alone: every defect once,
rule by rule, and the defects of one rule by their places in the document.
-/

namespace LayerGraph

def OnceIf {α : Type} (condition : Prop) (x : α) (xs : List α) : Prop :=
  condition ∧ xs = [x] ∨ ¬ condition ∧ xs = []

/-- The list has everything with the property, each thing once and by increasing places. -/
structure InOrder {α : Type} (property : α → Prop) (place : α → ℕ) (xs : List α) : Prop where
  mem_iff : ∀ x, x ∈ xs ↔ property x
  increasing : xs.Pairwise fun x y => place x < place y

def firstUses (seen : List String) (x : String) : ℕ :=
  if x ∈ seen then 0 else 1

theorem mem_repeated {seen found strings : List String} {x : String} :
    x ∈ repeated seen found strings ↔ x ∉ found ∧ firstUses seen x < strings.count x := by
  induction strings generalizing seen found with
  | nil => simp [repeated]
  | cons y rest ih =>
    by_cases old : y ∈ seen
    · by_cases told : y ∈ found
      · by_cases same : y = x
        · subst same
          simp [repeated, old, told, ih]
        · simp [repeated, old, told, ih, List.count_cons_of_ne same]
      · by_cases same : y = x
        · subst same
          simp [repeated, old, told, firstUses]
        · simp [repeated, old, told, ih, List.count_cons_of_ne same, Ne.symm same]
    · by_cases same : y = x
      · subst same
        simp [repeated, old, ih, firstUses]
      · simp [repeated, old, ih, firstUses, List.count_cons_of_ne same, Ne.symm same]

theorem mem_of_mem_repeated {seen found strings : List String} {x : String}
    (member : x ∈ repeated seen found strings) : x ∈ strings :=
  List.count_pos_iff.mp ((Nat.zero_le _).trans_lt (mem_repeated.mp member).2)

theorem ne_of_mem_repeated {seen found strings : List String} {x y : String} (told : y ∈ found)
    (member : x ∈ repeated seen found strings) : y ≠ x := by
  rintro rfl
  exact (mem_repeated.mp member).1 told

theorem idxOfNth_cons_of_ne {x y : String} (different : y ≠ x) (rest : List String) (n : ℕ) :
    (y :: rest).idxOfNth x n = rest.idxOfNth x n + 1 :=
  List.idxOfNth_cons_of_not_beq (beq_false_of_ne different)

/-- Among the strings that pass a test, repetitions are found in the order in which they occur. -/
theorem pairwise_repeated (test : String → Bool) (seen found strings : List String) :
    (repeated seen found (strings.filter test)).Pairwise fun x y =>
      strings.idxOfNth x (firstUses seen x) < strings.idxOfNth y (firstUses seen y) := by
  induction strings generalizing seen found with
  | nil => exact .nil
  | cons y rest ih =>
    by_cases passes : test y = true
    · by_cases old : y ∈ seen
      · by_cases told : y ∈ found
        · simp only [List.filter_cons_of_pos passes, repeated, List.contains_eq_mem, old, told,
            decide_true, if_true]
          exact pairwise_lt_of_shifted
            (fun x member => idxOfNth_cons_of_ne (ne_of_mem_repeated told member) rest _)
            (ih seen found)
        · have moves : ∀ x ∈ repeated seen (y :: found) (rest.filter test),
              (y :: rest).idxOfNth x (firstUses seen x) =
                rest.idxOfNth x (firstUses seen x) + 1 := fun x member =>
            idxOfNth_cons_of_ne (ne_of_mem_repeated (List.mem_cons_self ..) member) rest _
          simp only [List.filter_cons_of_pos passes, repeated, List.contains_eq_mem, old, told,
            decide_true, decide_false, if_true, Bool.false_eq_true, if_false]
          refine List.pairwise_cons.mpr ⟨fun x member => ?_, ?_⟩
          · rw [moves x member]
            simp [firstUses, old]
          · exact pairwise_lt_of_shifted moves (ih seen (y :: found))
      · -- The first use of `y` is passed here, so one less has to pass in the rest.
        simp only [List.filter_cons_of_pos passes, repeated, List.contains_eq_mem, old,
          decide_false, Bool.false_eq_true, if_false]
        refine pairwise_lt_of_shifted (fun x _ => ?_) (ih (y :: seen) found)
        by_cases same : y = x
        · subst same
          simp [firstUses, old]
        · simp [firstUses, Ne.symm same, idxOfNth_cons_of_ne same]
    · rw [List.filter_cons_of_neg passes]
      refine pairwise_lt_of_shifted (fun x member => idxOfNth_cons_of_ne ?_ rest _) (ih seen found)
      rintro rfl
      exact passes (List.of_mem_filter (mem_of_mem_repeated member))

example : repeated [] [] ["b", "a", "a", "b", "a", "c"] = ["a", "b"] := by
  decide

namespace Document

structure Repeats (document : Document) (id : String) : Prop where
  named : id ≠ ""
  twice : 2 ≤ (document.nodes.map (·.id)).count id

/-- Where an id is declared for the second time. -/
def repeatedAt (document : Document) (id : String) : ℕ :=
  (document.nodes.map (·.id)).idxOfNth id 1

/-- The end that an edge is reported for: its source, if that is not declared. -/
def unknownEnd (document : Document) (edge : Edge) : Diagnostic :=
  .ofGraph <|
    if document.Declares edge.source then .unknownTarget edge.target
    else .unknownSource edge.source

def resolvedInputs (document : Document) (id : String) : ℕ :=
  document.edges.countP fun edge => edge.target = id ∧ document.Resolves edge

structure Fixed where
  node : Node
  kind : Kind
  expected : ℕ

structure Misfits (document : Document) (fixed : Fixed) : Prop where
  declared : document.declaration? fixed.node.id = some fixed.node
  known : fixed.node.kind? = some fixed.kind
  takes : fixed.kind.schema.inputs = .exactly fixed.expected
  differs : document.resolvedInputs fixed.node.id ≠ fixed.expected

def arityReport (document : Document) (fixed : Fixed) : Diagnostic :=
  .ofNode fixed.node.id <|
    if document.resolvedInputs fixed.node.id = 0 then .missingInputs fixed.kind fixed.expected
    else .surplusInputs fixed.kind (document.resolvedInputs fixed.node.id) fixed.expected

variable (document : Document)

theorem onceIf_inputDefects :
    OnceIf (document.nodes.countP Node.isInput ≠ 1)
      (.ofGraph (if document.nodes.countP Node.isInput = 0 then .noInput else .severalInputs))
      document.inputDefects := by
  unfold OnceIf inputDefects
  generalize document.nodes.countP Node.isInput = count
  rcases count with _ | _ | count <;> simp

theorem exists_repeats : ∃ repeats, InOrder document.Repeats document.repeatedAt repeats ∧
    document.idDefects = repeats.map (.ofNode · .repeatedId) := by
  refine ⟨_, ⟨fun id => ?_, pairwise_repeated _ [] [] _⟩, rfl⟩
  have counted (named : id ≠ "") :
      ((document.nodes.map (·.id)).filter (· ≠ "")).count id =
        (document.nodes.map (·.id)).count id :=
    List.count_filter (p := (· ≠ "")) (decide_eq_true named)
  constructor
  · intro member
    have named : id ≠ "" := by simpa using (List.mem_filter.mp (mem_of_mem_repeated member)).2
    obtain ⟨_, twice⟩ := mem_repeated.mp member
    rw [counted named] at twice
    exact ⟨named, twice⟩
  · rintro ⟨named, twice⟩
    refine mem_repeated.mpr ⟨List.not_mem_nil, ?_⟩
    rw [counted named]
    exact twice

end Document

namespace Graph

theorem edgeDefects_ofDocument (document : Document) (edge : Edge) :
    (ofDocument document).edgeDefects edge =
      if document.Resolves edge then [] else [document.unknownEnd edge] := by
  unfold edgeDefects Document.Resolves Document.unknownEnd
  simp only [← mem_ids_ofDocument, ← declares_iff]
  cases (ofDocument document).declares edge.source <;>
    cases (ofDocument document).declares edge.target <;> simp

theorem flatMap_edgeDefects (document : Document) :
    document.edges.flatMap (ofDocument document).edgeDefects =
      (document.edges.filter fun edge => ¬ document.Resolves edge).map document.unknownEnd := by
  induction document.edges with
  | nil => rfl
  | cons edge rest ih =>
    rw [List.flatMap_cons, ih, edgeDefects_ofDocument]
    by_cases resolves : document.Resolves edge <;> simp [resolves]

theorem incoming_ofDocument_eq (document : Document) (id : String) :
    (ofDocument document).wiring.incoming id = document.resolvedInputs id := by
  simp only [Wiring.incoming, wiring, edges_ofDocument, Document.resolvedInputs, List.countP_map,
    List.countP_filter, Function.comp_def, Bool.decide_and]

def misfit? (document : Document) (node : Node) : Option Document.Fixed :=
  match node.kind? with
  | none => none
  | some kind =>
    match kind.schema.inputs with
    | .variadic => none
    | .exactly expected =>
      if document.resolvedInputs node.id = expected then none else some ⟨node, kind, expected⟩

theorem misfit?_eq_some_iff {document : Document} {node : Node} {fixed : Document.Fixed} :
    misfit? document node = some fixed ↔ fixed.node = node ∧ node.kind? = some fixed.kind ∧
      fixed.kind.schema.inputs = .exactly fixed.expected ∧
      document.resolvedInputs node.id ≠ fixed.expected := by
  unfold misfit?
  cases known : node.kind? with
  | none => simp
  | some kind =>
    constructor
    · intro found
      cases takes : kind.schema.inputs with
      | variadic => simp [takes] at found
      | exactly expected =>
        obtain ⟨differs, rfl⟩ : document.resolvedInputs node.id ≠ expected ∧
            ⟨node, kind, expected⟩ = fixed := by simpa [takes] using found
        exact ⟨rfl, rfl, takes, differs⟩
    · rintro ⟨rfl, same, takes, differs⟩
      obtain rfl := Option.some.inj same
      simp [takes, differs]

theorem arityDefects_ofDocument (document : Document) (node : Node) :
    (ofDocument document).arityDefects node =
      (misfit? document node).toList.map document.arityReport := by
  unfold arityDefects misfit?
  cases known : node.kind? with
  | none => rfl
  | some kind =>
    cases takes : kind.schema.inputs with
    | variadic => simp [takes]
    | exactly expected =>
      have bound := Kind.le_one_of_inputs takes
      have counted := incoming_ofDocument_eq document node.id
      simp only [takes, counted]
      by_cases right : document.resolvedInputs node.id = expected
      · simp [right]
        omega
      · rw [if_neg right, Option.toList_some, List.map_singleton, Document.arityReport]
        by_cases missing : document.resolvedInputs node.id = 0
        · have needed : 0 < expected := by omega
          simp [missing, needed]
        · have surplus : expected < document.resolvedInputs node.id := by omega
          simp [missing, surplus]

theorem exists_misfits (document : Document) :
    ∃ misfits, InOrder document.Misfits (fun fixed => document.declaredAt fixed.node.id) misfits ∧
      (ofDocument document).nodes.flatMap (ofDocument document).arityDefects =
        misfits.map document.arityReport := by
  refine ⟨(ofDocument document).nodes.filterMap (misfit? document), ⟨fun fixed => ?_, ?_⟩, ?_⟩
  · simp only [List.mem_filterMap, misfit?_eq_some_iff, mem_nodes_ofDocument]
    constructor
    · rintro ⟨_, declared, rfl, known, takes, differs⟩
      exact ⟨declared, known, takes, differs⟩
    · rintro ⟨declared, known, takes, differs⟩
      exact ⟨_, declared, rfl, known, takes, differs⟩
  · refine (List.pairwise_map.mp (pairwise_ids_ofDocument document)).filterMap _ ?_
    intro node other earlier fixed found fixed' found'
    rw [(misfit?_eq_some_iff.mp found).1, (misfit?_eq_some_iff.mp found').1]
    exact earlier
  · rw [List.filterMap_eq_flatMap_toList, List.map_flatMap]
    exact List.flatMap_congr fun node _ => arityDefects_ofDocument document node

theorem onceIf_cycleDefects (document : Document) :
    OnceIf (∃ id, Relation.TransGen document.Connects id id) (.ofGraph .cyclic)
      (ofDocument document).cycleDefects := by
  have cyclic : (ofDocument document).wiring.hasCycle = true ↔
      ∃ id, Relation.TransGen document.Connects id id := by
    rw [Wiring.hasCycle_iff_cyclic (wellFormed_ofDocument document)]
    simp only [Wiring.Cyclic, Wiring.Reaches, leads_ofDocument_eq]
  unfold OnceIf cycleDefects
  rw [← cyclic]
  cases (ofDocument document).wiring.hasCycle <;> simp

/-- Every structural defect is reported once. The report on the inputs comes first. Then come the
ids that are declared again, by their second declarations, the edges with an end that is not
declared, in their order, and the nodes with a wrong number of inputs, by their declarations. A
report on a cycle is last. -/
theorem structuralDiagnostics_exact (document : Document) :
    ∃ inputs repeats misfits cycles,
      OnceIf (document.nodes.countP Node.isInput ≠ 1)
        (.ofGraph (if document.nodes.countP Node.isInput = 0 then .noInput else .severalInputs))
        inputs ∧
      InOrder document.Repeats document.repeatedAt repeats ∧
      InOrder document.Misfits (fun fixed => document.declaredAt fixed.node.id) misfits ∧
      OnceIf (∃ id, Relation.TransGen document.Connects id id) (.ofGraph .cyclic) cycles ∧
      (ofDocument document).structuralDiagnostics document =
        inputs ++ repeats.map (.ofNode · .repeatedId) ++
          (document.edges.filter fun edge => ¬ document.Resolves edge).map document.unknownEnd ++
          misfits.map document.arityReport ++ cycles := by
  obtain ⟨repeats, listed, reported⟩ := document.exists_repeats
  obtain ⟨misfits, listed', reported'⟩ := exists_misfits document
  refine ⟨_, repeats, misfits, _, document.onceIf_inputDefects, listed, listed',
    onceIf_cycleDefects document, ?_⟩
  rw [structuralDiagnostics, reported, flatMap_edgeDefects, reported']

end Graph

end LayerGraph
