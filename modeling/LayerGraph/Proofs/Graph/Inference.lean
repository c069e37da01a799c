import LayerGraph.Graph.Inference
import LayerGraph.Proofs.Graph.Schedule
import LayerGraph.Proofs.Lookup

/-!
# Correctness of shape inference

The shape of a node can be derived from the document alone, by following first edges backwards to
an input. Along any list of ids inference records only what can be derived; along a topological
order it records all of it.
-/

namespace LayerGraph

namespace Document

/-- What a node makes of its operands. An input has none; any other node takes the shape of the
source of the first edge into it that counts, if that source has one. -/
inductive Yields (document : Document) : String → Except ShapeError Shape → Prop where
  | input {id : String} {node : Node} {result : Except ShapeError Shape}
      (declared : document.declaration? id = some node) (known : node.kind? = some .input)
      (transfer : Kind.input.outputShape [] node.params = result) : Yields document id result
  | layer {id source : String} {node : Node} {kind : Kind} {operand : Shape}
      {result : Except ShapeError Shape} (declared : document.declaration? id = some node)
      (known : node.kind? = some kind) (inner : kind ≠ .input)
      (first : document.firstSource? id = some source)
      (available : Yields document source (.ok operand))
      (transfer : kind.outputShape [operand] node.params = result) : Yields document id result

theorem Yields.declares {document : Document} {id : String} {result : Except ShapeError Shape}
    (yields : document.Yields id result) : document.Declares id := by
  rw [← isSome_declaration?, Option.isSome_iff_exists]
  cases yields with
  | input declared => exact ⟨_, declared⟩
  | layer declared => exact ⟨_, declared⟩

theorem Yields.unique {document : Document} {id : String} {result other : Except ShapeError Shape}
    (yields : document.Yields id result) (again : document.Yields id other) : result = other := by
  induction yields generalizing other with
  | input declared known transfer =>
    cases again with
    | input declared' _ transfer' =>
      obtain rfl := Option.some.inj (declared.symm.trans declared')
      rw [← transfer, ← transfer']
    | layer declared' known' inner =>
      obtain rfl := Option.some.inj (declared.symm.trans declared')
      exact absurd (Option.some.inj (known'.symm.trans known)) inner
  | layer declared known inner first _ transfer ih =>
    cases again with
    | input declared' known' =>
      obtain rfl := Option.some.inj (declared.symm.trans declared')
      exact absurd (Option.some.inj (known.symm.trans known')) inner
    | layer declared' known' _ first' available' transfer' =>
      obtain rfl := Option.some.inj (declared.symm.trans declared')
      obtain rfl := Option.some.inj (known.symm.trans known')
      obtain rfl := Option.some.inj (first.symm.trans first')
      obtain rfl := Except.ok.inj (ih available')
      rw [← transfer, ← transfer']

end Document

namespace Graph

def outcome? (graph : Graph) (shapes : List (String × Shape)) (id : String) :
    Option (Except ShapeError Shape) :=
  (graph.node? id).bind fun node => node.kind?.bind fun kind =>
    (graph.operands? shapes id kind).map fun operands => kind.outputShape operands node.params

theorem infer_eq (graph : Graph) (done : Inference) (id : String) :
    graph.infer done id =
      match graph.outcome? done.shapes id with
      | none => done
      | some (.ok shape) => { done with shapes := Table.insert id shape done.shapes }
      | some (.error error) => { done with failures := done.failures ++ [(id, error)] } := by
  unfold infer outcome?
  cases graph.node? id with
  | none => rfl
  | some node =>
    simp only [Option.bind_some]
    cases node.kind? with
    | none => rfl
    | some kind =>
      simp only [Option.bind_some]
      cases graph.operands? done.shapes id kind with
      | none => rfl
      | some operands =>
        simp only [Option.map_some]
        cases kind.outputShape operands node.params <;> rfl

variable {document : Document} {shapes : List (String × Shape)} {id : String}

theorem operands?_eq_some_iff {kind : Kind} {operands : List Shape} :
    (ofDocument document).operands? shapes id kind = some operands ↔
      kind = .input ∧ operands = [] ∨
      kind ≠ .input ∧ ∃ source operand, document.firstSource? id = some source ∧
        Table.get? source shapes = some operand ∧ operands = [operand] := by
  rw [operands?, ← head?_predecessors_ofDocument]
  by_cases input : kind = .input
  · simp [input, eq_comm]
  · cases (ofDocument document).wiring.predecessors id with
    | nil => simp [input]
    | cons source rest => simp [input, eq_comm]

theorem outcome?_eq_some_iff {result : Except ShapeError Shape} :
    (ofDocument document).outcome? shapes id = some result ↔
      ∃ node kind operands, document.declaration? id = some node ∧ node.kind? = some kind ∧
        (ofDocument document).operands? shapes id kind = some operands ∧
        kind.outputShape operands node.params = result := by
  simp only [outcome?, node?_ofDocument, Option.bind_eq_some_iff, Option.map_eq_some_iff]
  grind

/-- Where only derivable shapes are recorded, outcomes can be derived. -/
theorem yields_of_outcome? {result : Except ShapeError Shape}
    (sound : ∀ id shape, Table.get? id shapes = some shape → document.Yields id (.ok shape))
    (found : (ofDocument document).outcome? shapes id = some result) :
    document.Yields id result := by
  obtain ⟨node, kind, operands, declared, known, available, transfer⟩ :=
    outcome?_eq_some_iff.mp found
  rcases operands?_eq_some_iff.mp available with
    ⟨rfl, rfl⟩ | ⟨inner, source, operand, first, recorded, rfl⟩
  · exact .input declared known transfer
  · exact .layer declared known inner first (sound source operand recorded) transfer

/-- Where the shape of the first source is recorded if it has one, what can be derived is the
outcome. -/
theorem outcome?_of_yields {result : Except ShapeError Shape}
    (complete : ∀ source operand, document.firstSource? id = some source →
      document.Yields source (.ok operand) → Table.get? source shapes = some operand)
    (yields : document.Yields id result) :
    (ofDocument document).outcome? shapes id = some result := by
  rw [outcome?_eq_some_iff]
  cases yields with
  | @input _ node _ declared known transfer =>
    exact ⟨node, .input, [], declared, known, operands?_eq_some_iff.mpr (.inl ⟨rfl, rfl⟩), transfer⟩
  | @layer _ source node kind operand _ declared known inner first available transfer =>
    refine ⟨node, kind, [operand], declared, known, operands?_eq_some_iff.mpr (.inr ?_), transfer⟩
    exact ⟨inner, source, operand, first, complete source operand first available, rfl⟩

end Graph

namespace Inference

structure Sound (document : Document) (done : Inference) : Prop where
  shapes : ∀ id shape, Table.get? id done.shapes = some shape → document.Yields id (.ok shape)
  failures : ∀ id error, (id, error) ∈ done.failures → document.Yields id (.error error)

theorem infer_sound {document : Document} {done : Inference} (sound : Sound document done)
    (id : String) : Sound document ((Graph.ofDocument document).infer done id) := by
  rw [Graph.infer_eq]
  split
  · exact sound
  · rename_i shape found
    refine ⟨fun other recorded same => ?_, sound.failures⟩
    rw [Table.get?_insert] at same
    split at same
    · rename_i here
      subst here
      rw [← Option.some.inj same]
      exact Graph.yields_of_outcome? sound.shapes found
    · exact sound.shapes other recorded same
  · rename_i error found
    refine ⟨sound.shapes, fun other reason member => ?_⟩
    rcases List.mem_append.mp member with earlier | last
    · exact sound.failures other reason earlier
    · obtain ⟨rfl, rfl⟩ := Prod.mk.inj (List.mem_singleton.mp last)
      exact Graph.yields_of_outcome? sound.shapes found

/-- Along any list of ids, only what can be derived is recorded. -/
theorem inferShapes_sound (document : Document) (order : List String) :
    Sound document ((Graph.ofDocument document).inferShapes order) := by
  have run (done : Inference) (sound : Sound document done) :
      Sound document (order.foldl (Graph.ofDocument document).infer done) := by
    induction order generalizing done with
    | nil => exact sound
    | cons id rest ih => exact ih _ (infer_sound sound id)
  exact run _ ⟨by simp [Table.get?], by simp⟩

/-- What holds after the ids seen, which hold the sources of the edges into them. The failures
are those that can be derived for the ids seen, in their order. -/
structure Invariant (document : Document) (fails : String → Option ShapeError)
    (seen : List String) (done : Inference) : Prop where
  sound : Sound document done
  complete : ∀ id ∈ seen, ∀ shape, document.Yields id (.ok shape) →
    Table.get? id done.shapes = some shape
  failures : done.failures = seen.filterMap fun id => (fails id).map (id, ·)

variable {document : Document} {fails : String → Option ShapeError} {seen : List String}
  {done : Inference} {id : String}

/-- Once the first source has been seen, the outcome of a node is what can be derived for it. -/
theorem Invariant.outcome (invariant : Invariant document fails seen done)
    (ready : ∀ source, document.firstSource? id = some source → source ∈ seen)
    (result : Except ShapeError Shape) :
    (Graph.ofDocument document).outcome? done.shapes id = some result ↔
      document.Yields id result := by
  refine ⟨Graph.yields_of_outcome? invariant.sound.shapes, Graph.outcome?_of_yields ?_⟩
  exact fun source operand first => invariant.complete source (ready source first) operand

theorem infer_complete (invariant : Invariant document fails seen done)
    (ready : ∀ source, document.firstSource? id = some source → source ∈ seen) :
    ∀ other ∈ seen ++ [id], ∀ shape, document.Yields other (.ok shape) →
      Table.get? other ((Graph.ofDocument document).infer done id).shapes = some shape := by
  intro other member shape yields
  by_cases same : other = id
  · subst same
    rw [Graph.infer_eq, (invariant.outcome ready _).mpr yields]
    exact Table.get?_insert_self other shape done.shapes
  · have earlier : other ∈ seen := by simpa [same] using member
    have recorded := invariant.complete other earlier shape yields
    rw [Graph.infer_eq]
    split
    · exact recorded
    · rwa [Table.get?_insert_of_ne (Ne.symm same)]
    · exact recorded

theorem infer_failures (invariant : Invariant document fails seen done)
    (spec : ∀ id error, fails id = some error ↔ document.Yields id (.error error))
    (ready : ∀ source, document.firstSource? id = some source → source ∈ seen) :
    ((Graph.ofDocument document).infer done id).failures =
      (seen ++ [id]).filterMap fun id => (fails id).map (id, ·) := by
  have failed (error : ShapeError) : fails id = some error ↔
      (Graph.ofDocument document).outcome? done.shapes id = some (.error error) :=
    (spec id error).trans (invariant.outcome ready _).symm
  rw [List.filterMap_append, ← invariant.failures, Graph.infer_eq]
  cases same : fails id with
  | some error =>
    rw [(failed error).mp same]
    simp [same]
  | none =>
    have silent (error : ShapeError) :
        (Graph.ofDocument document).outcome? done.shapes id ≠ some (.error error) := by
      simp [← failed, same]
    split <;> simp_all

theorem infer_invariant (invariant : Invariant document fails seen done)
    (spec : ∀ id error, fails id = some error ↔ document.Yields id (.error error))
    (ready : ∀ source, document.firstSource? id = some source → source ∈ seen) :
    Invariant document fails (seen ++ [id]) ((Graph.ofDocument document).infer done id) :=
  ⟨infer_sound invariant.sound id, infer_complete invariant ready,
    infer_failures invariant spec ready⟩

/-- Along a topological order, every step finds the first source already seen. -/
theorem inferShapes_invariant {order : List String}
    (topological : (Graph.ofDocument document).wiring.TopologicalOrder order)
    (spec : ∀ id error, fails id = some error ↔ document.Yields id (.error error)) :
    Invariant document fails order ((Graph.ofDocument document).inferShapes order) := by
  have run (seen rest : List String) (done : Inference) (split : seen ++ rest = order)
      (invariant : Invariant document fails seen done) :
      Invariant document fails order (rest.foldl (Graph.ofDocument document).infer done) := by
    -- The ids still to come get shorter, and the invariant speaks of those before them.
    induction rest generalizing seen done with
    | nil => simpa [← split] using invariant
    | cons id rest ih =>
      subst split
      refine ih (seen ++ [id]) _ (by simp) (infer_invariant invariant spec fun source first => ?_)
      exact topological.mem_of_leads
        ((Graph.leads_ofDocument document source id).mpr (Document.connects_of_firstSource? first))
  exact run [] order _ rfl ⟨⟨by simp [Table.get?], by simp⟩, by simp, rfl⟩

theorem exists_fails (document : Document) : ∃ fails : String → Option ShapeError,
    ∀ id error, fails id = some error ↔ document.Yields id (.error error) := by
  have each (id : String) : ∃ fail? : Option ShapeError,
      ∀ error, fail? = some error ↔ document.Yields id (.error error) := by
    by_cases failing : ∃ error, document.Yields id (.error error)
    · obtain ⟨error, yields⟩ := failing
      refine ⟨some error, fun other => ⟨fun same => Option.some.inj same ▸ yields, fun again => ?_⟩⟩
      rw [Except.error.inj (yields.unique again)]
    · exact ⟨none, fun error => by simpa using fun yields => failing ⟨error, yields⟩⟩
  exact ⟨fun id => (each id).choose, fun id => (each id).choose_spec⟩

theorem mem_of_yields {order : List String}
    (topological : (Graph.ofDocument document).wiring.TopologicalOrder order)
    {result : Except ShapeError Shape} (yields : document.Yields id result) : id ∈ order :=
  (Graph.mem_order_iff topological).mpr yields.declares

/-- Along a topological order exactly the shapes that can be derived are recorded. -/
theorem shapes_iff_yields {order : List String}
    (topological : (Graph.ofDocument document).wiring.TopologicalOrder order) (id : String)
    (shape : Shape) : Table.get? id ((Graph.ofDocument document).inferShapes order).shapes =
      some shape ↔ document.Yields id (.ok shape) := by
  obtain ⟨fails, spec⟩ := exists_fails document
  have invariant := inferShapes_invariant topological spec
  refine ⟨invariant.sound.shapes id shape, fun yields => ?_⟩
  exact invariant.complete id (mem_of_yields topological yields) shape yields

/-- Along a topological order nothing fails exactly if no failure can be derived. -/
theorem failures_eq_nil_iff {order : List String}
    (topological : (Graph.ofDocument document).wiring.TopologicalOrder order) :
    ((Graph.ofDocument document).inferShapes order).failures = [] ↔
      ∀ id error, ¬ document.Yields id (.error error) := by
  obtain ⟨fails, spec⟩ := exists_fails document
  rw [(inferShapes_invariant topological spec).failures, List.filterMap_eq_nil_iff]
  constructor
  · intro silent id error yields
    have none := silent id (mem_of_yields topological yields)
    rw [(spec id error).mpr yields] at none
    contradiction
  · intro underivable id _
    rw [Option.map_eq_none_iff, Option.eq_none_iff_forall_ne_some]
    exact fun error failing => underivable id error ((spec id error).mp failing)

/-- Along a topological order, and a schedule is one, exactly the shapes that can be derived are
recorded, and exactly the failures that can be derived are reported, each once and in order. -/
theorem inferShapes_exact (document : Document) :
    (∀ order, (Graph.ofDocument document).wiring.schedule? = some order →
      (Graph.ofDocument document).wiring.TopologicalOrder order) ∧
    ∀ order, (Graph.ofDocument document).wiring.TopologicalOrder order →
      (∀ id shape, Table.get? id ((Graph.ofDocument document).inferShapes order).shapes =
        some shape ↔ document.Yields id (.ok shape)) ∧
      ∃ fails : String → Option ShapeError,
        (∀ id error, fails id = some error ↔ document.Yields id (.error error)) ∧
        ((Graph.ofDocument document).inferShapes order).diagnostics =
          order.filterMap fun id => (fails id).map fun error => .ofNode id (.noShape error) := by
  refine ⟨fun order => Graph.topologicalOrder_of_schedule?, fun order topological => ?_⟩
  obtain ⟨fails, spec⟩ := exists_fails document
  have invariant := inferShapes_invariant topological spec
  refine ⟨fun id shape => ⟨invariant.sound.shapes id shape, fun yields => ?_⟩, fails, spec, ?_⟩
  · exact invariant.complete id (mem_of_yields topological yields) shape yields
  · rw [diagnostics, invariant.failures, List.map_filterMap]
    simp [Function.comp_def]

def misfit : Document where
  nodes := [
    .ofKind "image" .input ⟨[("shape", .array [.number (.unsigned 1), .number (.unsigned 8)])]⟩,
    .ofKind "mask" .conv2d .empty,
    .ofKind "output" .relu .empty]
  edges := [⟨"image", "mask"⟩, ⟨"mask", "output"⟩]

theorem inferShapes_exact_misfit :
    (Graph.ofDocument misfit).wiring.TopologicalOrder ["image", "mask", "output"] ∧
    (∀ id shape, Table.get? id
        ((Graph.ofDocument misfit).inferShapes ["image", "mask", "output"]).shapes = some shape ↔
      misfit.Yields id (.ok shape)) ∧
    ∃ fails : String → Option ShapeError,
      (∀ id error, fails id = some error ↔ misfit.Yields id (.error error)) ∧
      ((Graph.ofDocument misfit).inferShapes ["image", "mask", "output"]).diagnostics =
        ["image", "mask", "output"].filterMap fun id =>
          (fails id).map fun error => .ofNode id (.noShape error) := by
  have topological := (inferShapes_exact misfit).1 ["image", "mask", "output"] (by decide +kernel)
  exact ⟨topological, (inferShapes_exact misfit).2 _ topological⟩

end Inference

end LayerGraph
