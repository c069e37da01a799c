import LayerGraph.Proofs.Graph.Schedule
import LayerGraph.Proofs.Wiring.Release
import Mathlib.Data.Finset.Max

/-!
# How a schedule breaks ties

Of all orders in which every edge leads forward, declaration picks one. The ids that no edge leads
to come first, as they are declared. Any other id is released by the last edge into it, last by the
place of its source in the order and then by its own place among the edges, and the ids stand in the
order in which they are released.
-/

namespace LayerGraph

namespace Document

def Root (document : Document) (id : String) : Prop :=
  ∀ source, ¬ document.Connects source id

def declaredAt (document : Document) (id : String) : ℕ :=
  (document.nodes.map (·.id)).idxOf id

def placedEdges (document : Document) : List (Edge × ℕ) :=
  document.edges.zipIdx.filter fun entry => document.Resolves entry.1

/-- When an edge is walked: by the place of its source in the order, and then by its own place. -/
def turn (order : List String) (entry : Edge × ℕ) : ℕ ×ₗ ℕ :=
  toLex (order.idxOf entry.1.source, entry.2)

/-- Of all edges into an id, this one is walked last. -/
structure Releases (document : Document) (order : List String) (entry : Edge × ℕ) (id : String) :
    Prop where
  placed : entry ∈ document.placedEdges
  target : entry.1.target = id
  last : ∀ other ∈ document.placedEdges, other.1.target = id → turn order other ≤ turn order entry

/-- An order in which every edge leads forward, and in which ties are broken by declaration. -/
structure TieBroken (document : Document) (order : List String) : Prop extends
    Wiring.TopologicalOrder (Graph.ofDocument document).wiring order where
  roots : ∀ u v, document.Declares u → document.Declares v → document.Root u →
    (order.idxOf u < order.idxOf v ↔
      ¬ document.Root v ∨ document.declaredAt u < document.declaredAt v)
  released : ∀ u v entry other, document.Releases order entry u → document.Releases order other v →
    (order.idxOf u < order.idxOf v ↔ turn order entry < turn order other)

variable {document : Document} {order : List String}

theorem mem_placedEdges {entry : Edge × ℕ} : entry ∈ document.placedEdges ↔
    document.edges[entry.2]? = some entry.1 ∧ document.Resolves entry.1 := by
  rw [placedEdges, List.mem_filter, List.mem_zipIdx_iff_getElem?, decide_eq_true_iff]

theorem connects_iff_placed {u v : String} : document.Connects u v ↔
    ∃ entry ∈ document.placedEdges, entry.1.source = u ∧ entry.1.target = v := by
  constructor
  · rintro ⟨edge, member, source, target, resolves⟩
    obtain ⟨place, found⟩ := List.mem_iff_getElem?.mp member
    exact ⟨(edge, place), mem_placedEdges.mpr ⟨found, resolves⟩, source, target⟩
  · rintro ⟨⟨edge, place⟩, placed, source, target⟩
    obtain ⟨found, resolves⟩ := mem_placedEdges.mp placed
    exact ⟨edge, List.mem_of_getElem? found, source, target, resolves⟩

theorem not_root_of_placed {entry : Edge × ℕ} (placed : entry ∈ document.placedEdges) :
    ¬ document.Root entry.1.target :=
  fun root => root _ (connects_iff_placed.mpr ⟨entry, placed, rfl, rfl⟩)

/-- An id that some edge leads to is released by one of them. -/
theorem exists_releases (order : List String) {id : String} (inner : ¬ document.Root id) :
    ∃ entry, document.Releases order entry id := by
  obtain ⟨source, connects⟩ : ∃ source, document.Connects source id := by
    simpa [Root] using inner
  obtain ⟨entry, placed, _, target⟩ := connects_iff_placed.mp connects
  let into := (document.placedEdges.filter fun entry => entry.1.target = id).toFinset
  have mem_into (entry : Edge × ℕ) :
      entry ∈ into ↔ entry ∈ document.placedEdges ∧ entry.1.target = id := by
    simp [into]
  obtain ⟨last, member, greatest⟩ :=
    into.exists_max_image (turn order) ⟨entry, (mem_into entry).mpr ⟨placed, target⟩⟩
  obtain ⟨placed, target⟩ := (mem_into last).mp member
  exact ⟨last, placed, target, fun other placed' target' =>
    greatest other ((mem_into other).mpr ⟨placed', target'⟩)⟩

/-- The first id stands before the second: it is declared before it if the second is a root, and
each edge into it is walked before some edge into the second. -/
def Precedes (document : Document) (order : List String) (u v : String) : Prop :=
  (document.Root v → document.declaredAt u < document.declaredAt v) ∧
  ∀ entry ∈ document.placedEdges, entry.1.target = u →
    ∃ other ∈ document.placedEdges, other.1.target = v ∧ turn order entry < turn order other

theorem Root.precedes_iff {u v : String} (root : document.Root u) :
    document.Precedes order u v ↔
      ¬ document.Root v ∨ document.declaredAt u < document.declaredAt v := by
  rw [Precedes, and_iff_left, imp_iff_not_or]
  intro entry placed target
  exact absurd root (target ▸ not_root_of_placed placed)

theorem Releases.precedes_iff {u v : String} {entry other : Edge × ℕ}
    (releases : document.Releases order entry u) (releases' : document.Releases order other v) :
    document.Precedes order u v ↔ turn order entry < turn order other := by
  constructor
  · intro precedes
    obtain ⟨later, placed, target, less⟩ := precedes.2 entry releases.placed releases.target
    exact less.trans_le (releases'.last later placed target)
  · intro less
    refine ⟨fun root => ?_, fun earlier placed target => ?_⟩
    · exact absurd root (releases'.target ▸ not_root_of_placed releases'.placed)
    · exact ⟨other, releases'.placed, releases'.target,
        (releases.last earlier placed target).trans_lt less⟩

theorem Precedes.asymm {u v : String} (precedes : document.Precedes order u v) :
    ¬ document.Precedes order v u := by
  intro after
  by_cases root : document.Root u
  · rcases root.precedes_iff.mp precedes with inner | less
    · obtain ⟨entry, releases⟩ := exists_releases order inner
      obtain ⟨other, placed, target, _⟩ := after.2 entry releases.placed releases.target
      exact not_root_of_placed placed (target ▸ root)
    · exact Nat.lt_asymm less (after.1 root)
  · obtain ⟨entry, releases⟩ := exists_releases order root
    obtain ⟨other, placed, target, less⟩ := precedes.2 entry releases.placed releases.target
    obtain ⟨again, placed', target', less'⟩ := after.2 other placed target
    exact lt_irrefl _ ((less.trans less').trans_le (releases.last again placed' target'))

end Document

/-- An order by places is kept where all places move by one. -/
theorem pairwise_lt_of_shifted {α : Type} {place shifted : α → ℕ} {list : List α}
    (moves : ∀ x ∈ list, shifted x = place x + 1)
    (ordered : list.Pairwise fun x y => place x < place y) :
    list.Pairwise fun x y => shifted x < shifted y := by
  refine ordered.imp_of_mem fun member member' less => ?_
  rw [moves _ member, moves _ member']
  exact Nat.succ_lt_succ less

namespace Graph

theorem pairwise_firstDeclarations (seen : List String) (nodes : List Node) :
    (firstDeclarations seen nodes).Pairwise fun node other =>
      (nodes.map (·.id)).idxOf node.id < (nodes.map (·.id)).idxOf other.id := by
  have apart (seen : List String) (nodes : List Node) {node : Node}
      (member : node ∈ firstDeclarations seen nodes) : ¬ (node.id = "" ∨ node.id ∈ seen) := by
    intro skipped
    have absent := find?_firstDeclarations seen nodes node.id
    rw [if_pos skipped] at absent
    simpa using List.find?_eq_none.mp absent node member
  induction nodes generalizing seen with
  | nil => exact .nil
  | cons node rest ih =>
    have shifted (other : Node) (different : node.id ≠ other.id) :
        ((node :: rest).map (·.id)).idxOf other.id = (rest.map (·.id)).idxOf other.id + 1 := by
      rw [List.map_cons, List.idxOf_cons_ne _ different]
    unfold firstDeclarations
    split
    · rename_i skipped
      have skipped : node.id = "" ∨ node.id ∈ seen := by simpa using skipped
      exact pairwise_lt_of_shifted
        (fun other member => shifted other fun same => apart _ _ member (same ▸ skipped)) (ih seen)
    · have different {other : Node} (member : other ∈ firstDeclarations (node.id :: seen) rest) :
          node.id ≠ other.id :=
        fun same => apart _ _ member (.inr (same ▸ List.mem_cons_self ..))
      refine List.pairwise_cons.mpr ⟨fun other member => ?_, ?_⟩
      · rw [shifted other (different member), List.map_cons, List.idxOf_cons_self]
        exact Nat.succ_pos _
      · exact pairwise_lt_of_shifted (fun other member => shifted other (different member))
          (ih (node.id :: seen))

variable {document : Document} {order : List String}

theorem pairwise_ids_ofDocument (document : Document) :
    (ofDocument document).ids.Pairwise fun u v => document.declaredAt u < document.declaredAt v :=
  List.pairwise_map.mpr (pairwise_firstDeclarations [] document.nodes)

theorem mem_roots_ofDocument {id : String} : id ∈ (ofDocument document).wiring.roots ↔
    document.Declares id ∧ document.Root id := by
  rw [Wiring.mem_roots_iff]
  simp only [leads_ofDocument, Document.Root]
  exact and_congr_left' (mem_ids_ofDocument document id)

theorem arcs_ofDocument (document : Document) : (ofDocument document).wiring.arcs =
    document.placedEdges.map fun entry => (entry.1.source, entry.1.target) := by
  have edges : document.placedEdges.map (·.1) =
      document.edges.filter fun edge => document.Resolves edge := by
    conv_rhs => rw [← List.zipIdx_map_fst 0 document.edges, List.filter_map]
    rfl
  rw [wiring, edges_ofDocument, ← edges, List.map_map]
  rfl

theorem pairwise_placedEdges (document : Document) :
    document.placedEdges.Pairwise fun entry other => entry.2 < other.2 := by
  apply List.Pairwise.filter
  apply List.pairwise_map.mp
  rw [List.zipIdx_map_snd]
  exact List.pairwise_lt_range'

/-- What stands before in a schedule precedes by declaration. -/
theorem pairwise_precedes (scheduled : (ofDocument document).wiring.schedule? = some order) :
    order.Pairwise (document.Precedes order) := by
  have wellFormed := wellFormed_ofDocument document
  have topological := topologicalOrder_of_schedule? scheduled
  have roots := Wiring.pairwise_roots wellFormed scheduled (pairwise_ids_ofDocument document)
  have targets := Wiring.pairwise_targets wellFormed scheduled (arcs_ofDocument document)
    (Wiring.pairwise_walks topological.distinct (pairwise_placedEdges document))
  apply List.Pairwise.imp_of_mem _ (roots.and targets)
  rintro u v _ member ⟨declared, walked⟩
  have declares := (mem_order_iff topological).mp member
  exact ⟨fun root => declared (mem_roots_ofDocument.mpr ⟨declares, root⟩), walked⟩

end Graph

namespace Document

variable {document : Document} {order other : List String}

theorem tieBroken_of_schedule?
    (scheduled : (Graph.ofDocument document).wiring.schedule? = some order) :
    document.TieBroken order := by
  have topological := Graph.topologicalOrder_of_schedule? scheduled
  have before {u v : String} (declares : document.Declares u) (declares' : document.Declares v) :
      order.idxOf u < order.idxOf v ↔ document.Precedes order u v :=
    idxOf_lt_idxOf_iff_of_pairwise (Graph.pairwise_precedes scheduled)
      (fun _ _ precedes => precedes.asymm) ((Graph.mem_order_iff topological).mpr declares)
      ((Graph.mem_order_iff topological).mpr declares')
  refine ⟨topological, fun u v declares declares' root => ?_, ?_⟩
  · rw [before declares declares', root.precedes_iff]
  · intro u v entry other releases releases'
    have declares := (mem_placedEdges.mp releases.placed).2.2
    have declares' := (mem_placedEdges.mp releases'.placed).2.2
    rw [releases.target] at declares
    rw [releases'.target] at declares'
    rw [before declares declares', releases.precedes_iff releases']

/-- What releases an id is seen from the turns of the edges into it. -/
theorem Releases.congr {entry : Edge × ℕ} {id : String}
    (alike : ∀ edge ∈ document.placedEdges, edge.1.target = id → turn order edge = turn other edge)
    (releases : document.Releases order entry id) : document.Releases other entry id := by
  refine ⟨releases.placed, releases.target, fun earlier placed target => ?_⟩
  rw [← alike earlier placed target, ← alike entry releases.placed releases.target]
  exact releases.last earlier placed target

/-- The sources of the edges into an id stand before it, so these edges have the same turns in any
order that begins with the same ids. -/
theorem turn_eq_of_split
    (topological : (Graph.ofDocument document).wiring.TopologicalOrder order)
    {seen rest rest' : List String} {id : String} (split : order = seen ++ id :: rest)
    (split' : other = seen ++ rest') :
    ∀ edge ∈ document.placedEdges, edge.1.target = id → turn order edge = turn other edge := by
  intro edge placed target
  have connects := connects_iff_placed.mpr ⟨edge, placed, rfl, target⟩
  rw [split] at topological
  have known : edge.1.source ∈ seen :=
    topological.mem_of_leads ((Graph.leads_ofDocument document _ _).mpr connects)
  rw [turn, turn, split, split', List.idxOf_append_of_mem known, List.idxOf_append_of_mem known]

/-- Where two orders have come so far in the same way, they go on with the same id. -/
theorem TieBroken.next_eq (first : document.TieBroken order) (second : document.TieBroken other)
    {seen rest rest' : List String} {u v : String} (split : order = seen ++ u :: rest)
    (split' : other = seen ++ v :: rest') : u = v := by
  by_contra apart
  have before : order.idxOf u < order.idxOf v :=
    idxOf_lt_idxOf_of_split first.distinct split second.distinct split' apart
  have before' : other.idxOf v < other.idxOf u :=
    idxOf_lt_idxOf_of_split second.distinct split' first.distinct split (Ne.symm apart)
  have declares : document.Declares u :=
    (Graph.mem_order_iff first.toTopologicalOrder).mp (by simp [split])
  have declares' : document.Declares v :=
    (Graph.mem_order_iff second.toTopologicalOrder).mp (by simp [split'])
  -- Roots are compared by their declarations, and other ids by what releases them.
  by_cases root : document.Root u
  · have ties := (first.roots u v declares declares' root).mp before
    exact Nat.lt_asymm before' ((second.roots u v declares declares' root).mpr ties)
  by_cases root' : document.Root v
  · have ties := (second.roots v u declares' declares root').mp before'
    exact Nat.lt_asymm before ((first.roots v u declares' declares root').mpr ties)
  have alike := turn_eq_of_split first.toTopologicalOrder split split'
  have alike' := turn_eq_of_split second.toTopologicalOrder split' split
  obtain ⟨entry, releases⟩ := exists_releases order root
  obtain ⟨last, releases'⟩ := exists_releases other root'
  have less := (first.released u v entry last releases
    (releases'.congr alike')).mp before
  have less' := (second.released v u last entry releases' (releases.congr alike)).mp before'
  rw [alike entry releases.placed releases.target,
    ← alike' last releases'.placed releases'.target] at less
  exact lt_asymm less less'

theorem TieBroken.unique (first : document.TieBroken order) (second : document.TieBroken other) :
    other = order := by
  have wellFormed := Graph.wellFormed_ofDocument document
  have perm := (second.toTopologicalOrder.perm wellFormed).trans
    (first.toTopologicalOrder.perm wellFormed).symm
  exact eq_of_next perm.length_eq fun seen u rest v rest' split split' =>
    second.next_eq first split split'

/-- A schedule is the one order in which every edge leads forward and ties are broken by
declaration: the roots come first, as they are declared, and then the other ids, in the order of
the edges that release them. -/
theorem schedule_breaks_ties (document : Document) {order : List String}
    (scheduled : (Graph.ofDocument document).wiring.schedule? = some order) :
    document.TieBroken order ∧
    (∀ id, ¬ document.Root id → ∃ entry, document.Releases order entry id) ∧
    ∀ other, document.TieBroken other → other = order := by
  have broken := tieBroken_of_schedule? scheduled
  exact ⟨broken, fun _ => exists_releases order, fun _ again => broken.unique again⟩

/-- Two roots, and a node that is released by the second of two parallel edges. -/
def crossed : Document where
  nodes := [.ofKind "sum" .add .empty, .ofKind "left" .relu .empty, .ofKind "right" .relu .empty,
    .ofKind "mask" .add .empty, .ofKind "image" .input .empty]
  edges := [⟨"image", "right"⟩, ⟨"mask", "left"⟩, ⟨"right", "sum"⟩, ⟨"left", "sum"⟩,
    ⟨"right", "sum"⟩]

/-- The right layer has the earlier edge, but the left one the earlier source. -/
theorem schedule_breaks_ties_crossed :
    (Graph.ofDocument crossed).wiring.schedule? = some ["mask", "image", "left", "right", "sum"] ∧
    crossed.TieBroken ["mask", "image", "left", "right", "sum"] ∧
    (∀ id, ¬ crossed.Root id →
      ∃ entry, crossed.Releases ["mask", "image", "left", "right", "sum"] entry id) ∧
    ∀ other, crossed.TieBroken other → other = ["mask", "image", "left", "right", "sum"] := by
  have scheduled : (Graph.ofDocument crossed).wiring.schedule? =
      some ["mask", "image", "left", "right", "sum"] := by
    decide +kernel
  exact ⟨scheduled, schedule_breaks_ties crossed scheduled⟩

end Document

end LayerGraph
