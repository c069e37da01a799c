import LayerGraph.Proofs.Graph.Shapes

/-!
# Shapes along different lists

Inference along any list of ids records only what can be derived from the document. So no two lists
lead to different shapes of one id, a recorded shape stays, and only root causes are reported: what
a failing node depends on has a shape and is not reported. Topological orders lead to the same
shapes and the same failures.
-/

namespace LayerGraph

namespace Document

/-- The shape of an id depends on that of the source of the first edge into it. The shape of an
input depends on none. -/
def DependsOn (document : Document) (id source : String) : Prop :=
  (∀ node, document.declaration? id = some node → node.kind? ≠ some .input) ∧
  document.firstSource? id = some source

variable {document : Document} {id source : String} {result : Except ShapeError Shape}

theorem Yields.dependsOn (yields : document.Yields id result)
    (depends : document.DependsOn id source) : ∃ shape, document.Yields source (.ok shape) := by
  obtain ⟨inner, first⟩ := depends
  cases yields with
  | input declared known => exact absurd known (inner _ declared)
  | layer _ _ _ first' available =>
    obtain rfl := Option.some.inj (first.symm.trans first')
    exact ⟨_, available⟩

/-- All that an id with an outcome depends on has a shape. -/
theorem Yields.of_chain (yields : document.Yields id result)
    (chain : Relation.ReflTransGen document.DependsOn id source) :
    source = id ∨ ∃ shape, document.Yields source (.ok shape) := by
  induction chain using Relation.ReflTransGen.head_induction_on generalizing result with
  | refl => exact .inl rfl
  | head depends _ ih =>
    obtain ⟨shape, available⟩ := yields.dependsOn depends
    right
    rcases ih available with rfl | shaped
    · exact ⟨shape, available⟩
    · exact shaped

end Document

namespace Inference

def Reports (inference : Inference) (id : String) : Prop :=
  ∃ diagnostic ∈ inference.diagnostics,
    diagnostic.nodeId = some id ∧ diagnostic.defect.code = "I001"

/-- Two inferences on a document do not contradict each other. They record the same shape for an id,
what has a shape in the first is not reported in the second, and if an id is reported in the first,
nothing else that it depends on is reported in the second. -/
structure Consistent (document : Document) (done other : Inference) : Prop where
  shapes : ∀ id shape shape', Table.get? id done.shapes = some shape →
    Table.get? id other.shapes = some shape' → shape = shape'
  silent : ∀ id shape, Table.get? id done.shapes = some shape → ¬ other.Reports id
  rootCauses : ∀ id source, done.Reports id →
    Relation.ReflTransGen document.DependsOn id source → source ≠ id → ¬ other.Reports source

theorem reports_iff {inference : Inference} {id : String} :
    inference.Reports id ↔ ∃ error, (id, error) ∈ inference.failures := by
  constructor
  · rintro ⟨diagnostic, member, named, _⟩
    obtain ⟨⟨name, error⟩, failed, rfl⟩ := List.mem_map.mp member
    obtain rfl : name = id := Option.some.inj named
    exact ⟨error, failed⟩
  · rintro ⟨error, failed⟩
    exact ⟨_, List.mem_map_of_mem failed, rfl, rfl⟩

variable {document : Document} {done other : Inference} {id : String} {shape : Shape}

theorem Sound.not_reports (sound : Sound document done)
    (yields : document.Yields id (.ok shape)) : ¬ done.Reports id := by
  intro reported
  obtain ⟨error, failed⟩ := reports_iff.mp reported
  have same := yields.unique (sound.failures id error failed)
  contradiction

theorem Sound.consistent (sound : Sound document done) (sound' : Sound document other) :
    Consistent document done other := by
  refine ⟨fun id shape shape' recorded recorded' => ?_, fun id shape recorded => ?_, ?_⟩
  · have yields := sound.shapes id shape recorded
    exact Except.ok.inj (yields.unique (sound'.shapes id shape' recorded'))
  · exact sound'.not_reports (sound.shapes id shape recorded)
  · intro id source reported chain apart
    obtain ⟨error, failed⟩ := reports_iff.mp reported
    rcases (sound.failures id error failed).of_chain chain with same | ⟨shape, yields⟩
    · exact absurd same apart
    · exact sound'.not_reports yields

/-- A step does not replace a shape, since it would record what can be derived too. -/
theorem infer_keeps (sound : Sound document done) (recorded : Table.get? id done.shapes = some shape)
    (next : String) :
    Table.get? id ((Graph.ofDocument document).infer done next).shapes = some shape := by
  have sound' := infer_sound sound next
  rw [Graph.infer_eq] at sound' ⊢
  split
  · exact recorded
  · rename_i found outcome
    rw [Table.get?_insert]
    split
    · rename_i here
      subst here
      have again := Graph.yields_of_outcome? sound.shapes outcome
      rw [Except.ok.inj (again.unique (sound.shapes next shape recorded))]
    · exact recorded
  · exact recorded

theorem inferShapes_keeps {seen : List String} (rest : List String) (recorded :
    Table.get? id ((Graph.ofDocument document).inferShapes seen).shapes = some shape) :
    Table.get? id ((Graph.ofDocument document).inferShapes (seen ++ rest)).shapes = some shape := by
  induction rest generalizing seen with
  | nil => rwa [List.append_nil]
  | cons next rest ih =>
    rw [← List.singleton_append, ← List.append_assoc]
    apply ih
    rw [Graph.inferShapes, List.foldl_append]
    exact infer_keeps (inferShapes_sound document seen) recorded next

section TopologicalOrders

variable {twin : Document} {order order' : List String}
  (topological : (Graph.ofDocument document).wiring.TopologicalOrder order)
  (topological' : (Graph.ofDocument twin).wiring.TopologicalOrder order')
  (alike : ∀ id result, document.Yields id result ↔ twin.Yields id result)

include topological topological' alike

/-- Along topological orders, what can be derived determines the table of shapes. -/
theorem shapes_eq_of_yields_iff : ((Graph.ofDocument document).inferShapes order).shapes =
    ((Graph.ofDocument twin).inferShapes order').shapes := by
  apply (Graph.inferShapes_sorted _ _).ext (Graph.inferShapes_sorted _ _)
  intro id
  apply Option.ext
  intro shape
  rw [shapes_iff_yields topological, shapes_iff_yields topological', alike]

/-- What fails is read off the derivations, and reported in the order of the list. -/
theorem failures_perm_of_yields_iff (perm : order.Perm order') :
    ((Graph.ofDocument document).inferShapes order).failures.Perm
      ((Graph.ofDocument twin).inferShapes order').failures := by
  obtain ⟨fails, spec⟩ := exists_fails document
  have spec' (id : String) (error : ShapeError) :
      fails id = some error ↔ twin.Yields id (.error error) :=
    (spec id error).trans (alike id _)
  rw [(inferShapes_invariant topological spec).failures,
    (inferShapes_invariant topological' spec').failures]
  exact perm.filterMap _

end TopologicalOrders

/-- Inferences along any two lists of ids, which may be the same, are consistent, and a shape that
has been recorded stays. Along topological orders they record the same table of shapes and report
the same failures, each in its order. -/
theorem inferShapes_consistent (document : Document) (order order' : List String) :
    Consistent document ((Graph.ofDocument document).inferShapes order)
      ((Graph.ofDocument document).inferShapes order') ∧
    (∀ seen rest, order = seen ++ rest → ∀ id shape,
      Table.get? id ((Graph.ofDocument document).inferShapes seen).shapes = some shape →
      Table.get? id ((Graph.ofDocument document).inferShapes order).shapes = some shape) ∧
    ((Graph.ofDocument document).wiring.TopologicalOrder order →
      (Graph.ofDocument document).wiring.TopologicalOrder order' →
      ((Graph.ofDocument document).inferShapes order).shapes =
        ((Graph.ofDocument document).inferShapes order').shapes ∧
      ((Graph.ofDocument document).inferShapes order).diagnostics.Perm
        ((Graph.ofDocument document).inferShapes order').diagnostics) := by
  refine ⟨(inferShapes_sound document order).consistent (inferShapes_sound document order'), ?_, ?_⟩
  · rintro seen rest rfl id shape recorded
    exact inferShapes_keeps rest recorded
  · intro topological topological'
    have wellFormed := Graph.wellFormed_ofDocument document
    have perm := (topological.perm wellFormed).trans (topological'.perm wellFormed).symm
    have alike (id : String) (result : Except ShapeError Shape) :
        document.Yields id result ↔ document.Yields id result := Iff.rfl
    refine ⟨shapes_eq_of_yields_iff topological topological' alike, ?_⟩
    exact (failures_perm_of_yields_iff topological topological' alike perm).map _

def unfit : Document where
  nodes := [.ofKind "image" .input ⟨[("shape", .array [.number (.unsigned 1)])]⟩,
    .ofKind "left" .conv2d .empty, .ofKind "right" .conv2d .empty, .ofKind "output" .relu .empty]
  edges := [⟨"image", "left"⟩, ⟨"image", "right"⟩, ⟨"left", "output"⟩]

/-- The convolutions are reported in either order, and neither the image nor the layer behind. -/
theorem inferShapes_consistent_unfit :
    let run := (Graph.ofDocument unfit).inferShapes
    let order := ["image", "left", "right", "output"]
    let order' := ["image", "right", "left", "output"]
    ((Graph.ofDocument unfit).wiring.TopologicalOrder order ∧
      (Graph.ofDocument unfit).wiring.TopologicalOrder order' ∧
      (run order).shapes = (run order').shapes ∧
      (run order).diagnostics.Perm (run order').diagnostics) ∧
    (Table.get? "image" (run ["image", "left"]).shapes = some [1] ∧
      Table.get? "image" (run order).shapes = some [1] ∧ ¬ (run order').Reports "image") ∧
    (run order).Reports "left" ∧ unfit.DependsOn "left" "image" ∧ ¬ (run order').Reports "image" := by
  intro run order order'
  have topological : (Graph.ofDocument unfit).wiring.TopologicalOrder order :=
    Graph.topologicalOrder_of_schedule? (by decide +kernel)
  have forward : ∀ arc ∈ (Graph.ofDocument unfit).wiring.arcs,
      order'.idxOf arc.1 < order'.idxOf arc.2 := by
    decide +kernel
  have perm : order'.Perm (Graph.ofDocument unfit).wiring.vertices := by
    decide +kernel
  have topological' : (Graph.ofDocument unfit).wiring.TopologicalOrder order' :=
    ⟨by decide, fun _ => perm.mem_iff, fun u v => forward (u, v)⟩
  have recorded : Table.get? "image" (run ["image", "left"]).shapes = some [1] := by
    decide +kernel
  have reported : (run order).Reports "left" := by
    unfold Reports
    decide +kernel
  have depends : unfit.DependsOn "left" "image" := by
    refine ⟨fun node declared => ?_, by decide +kernel⟩
    obtain rfl : unfit.nodes[1] = node := Option.some.inj declared
    decide +kernel
  obtain ⟨consistent, keeps, same⟩ := inferShapes_consistent unfit order order'
  have kept := keeps ["image", "left"] ["right", "output"] rfl "image" [1] recorded
  refine ⟨⟨topological, topological', same topological topological'⟩, ⟨recorded, kept, ?_⟩,
    reported, depends, ?_⟩
  · exact consistent.silent "image" [1] kept
  · exact consistent.rootCauses "left" "image" reported (.single depends) (by decide)

end Inference

end LayerGraph
