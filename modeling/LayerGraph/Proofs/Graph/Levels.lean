import LayerGraph.Proofs.Graph.TieBreaking
import Mathlib.Order.ConditionallyCompleteLattice.Basic
import Mathlib.Order.Lattice.Nat

/-!
# Schedules go level by level

The depth of an id is the length of the longest path to it. The scheduler does not compute depths,
but since it takes the vertices of its queue in the order in which they joined, no id stands behind
a deeper one.
-/

namespace LayerGraph

namespace Document

inductive PathTo (document : Document) : ℕ → String → Prop where
  | start (id : String) : PathTo document 0 id
  | step {length : ℕ} {source id : String} (path : PathTo document length source)
      (connects : document.Connects source id) : PathTo document (length + 1) id

/-- The number of edges of the longest path that ends at the id. -/
noncomputable def depth (document : Document) (id : String) : ℕ :=
  sSup {length | document.PathTo length id}

variable {document : Document} {order : List String}

/-- Along a path the places in an order increase, so it is no longer than they allow. -/
theorem PathTo.length_le (topological : (Graph.ofDocument document).wiring.TopologicalOrder order)
    {length : ℕ} {id : String} (path : document.PathTo length id) : length ≤ order.idxOf id := by
  induction path with
  | start => exact Nat.zero_le _
  | step _ connects ih =>
    exact ih.trans_lt (Graph.idxOf_lt_of_connects topological connects)

theorem isGreatest_depth (topological : (Graph.ofDocument document).wiring.TopologicalOrder order)
    (id : String) : IsGreatest {length | document.PathTo length id} (document.depth id) := by
  have bounded : BddAbove {length | document.PathTo length id} :=
    ⟨order.idxOf id, fun _ path => path.length_le topological⟩
  exact ⟨Nat.sSup_mem ⟨0, .start id⟩ bounded, fun _ path => le_csSup bounded path⟩

theorem PathTo.le_depth (topological : (Graph.ofDocument document).wiring.TopologicalOrder order)
    {length : ℕ} {id : String} (path : document.PathTo length id) : length ≤ document.depth id :=
  (isGreatest_depth topological id).2 path

theorem pathTo_depth (topological : (Graph.ofDocument document).wiring.TopologicalOrder order)
    (id : String) : document.PathTo (document.depth id) id :=
  (isGreatest_depth topological id).1

/-- The last edge into an id comes from its deepest source, and what stands before the id was
released from no later source. -/
theorem depth_le_depth (scheduled : (Graph.ofDocument document).wiring.schedule? = some order)
    {u v : String} (member : v ∈ order) (before : order.idxOf u < order.idxOf v) :
    document.depth u ≤ document.depth v := by
  have topological := Graph.topologicalOrder_of_schedule? scheduled
  induction place : order.idxOf v using Nat.strong_induction_on generalizing u v with
  | _ place ih =>
    obtain ⟨_, walked⟩ := rel_of_idxOf_lt (Graph.pairwise_precedes scheduled) member before
    have longest := pathTo_depth topological u
    generalize document.depth u = deepest at longest
    cases longest with
    | start => exact Nat.zero_le _
    | @step length source _ path connects =>
      obtain ⟨entry, placed, rfl, into⟩ := connects_iff_placed.mp connects
      obtain ⟨other, placed', rfl, less⟩ := walked entry placed into
      have connects' : document.Connects other.1.source other.1.target :=
        connects_iff_placed.mpr ⟨other, placed', rfl, rfl⟩
      have forward := Graph.idxOf_lt_of_connects topological connects'
      have listed := (Graph.mem_order_iff topological).mpr (mem_placedEdges.mp placed').2.1
      have deeper : document.depth entry.1.source ≤ document.depth other.1.source := by
        rcases Prod.Lex.toLex_lt_toLex.mp less with earlier | ⟨same, _⟩
        · exact ih _ (place ▸ forward) listed earlier rfl
        · rw [(List.idxOf_inj listed).mp same.symm]
      calc
        length + 1 ≤ document.depth entry.1.source + 1 :=
          Nat.succ_le_succ (path.le_depth topological)
        _ ≤ document.depth other.1.source + 1 := Nat.succ_le_succ deeper
        _ ≤ document.depth other.1.target :=
          (pathTo_depth topological _).step connects' |>.le_depth topological

/-- Along a schedule depths do not decrease: every id of some depth stands before all deeper ones.
The longest path to an id exists. -/
theorem schedule_by_depth (document : Document) {order : List String}
    (scheduled : (Graph.ofDocument document).wiring.schedule? = some order) :
    (∀ id, IsGreatest {length | document.PathTo length id} (document.depth id)) ∧
    order.Pairwise (fun u v => document.depth u ≤ document.depth v) ∧
    ∀ u ∈ order, ∀ v ∈ order, document.depth u < document.depth v →
      order.idxOf u < order.idxOf v := by
  have topological := Graph.topologicalOrder_of_schedule? scheduled
  refine ⟨isGreatest_depth topological, ?_, fun u member v _ less => ?_⟩
  · apply List.Pairwise.imp_of_mem _ (pairwise_idxOf topological.distinct)
    intro u v _ member before
    exact depth_le_depth scheduled member before
  · by_contra notBefore
    rcases Nat.lt_or_eq_of_le (Nat.not_lt.mp notBefore) with after | same
    · exact Nat.not_lt.mpr (depth_le_depth scheduled member after) less
    · rw [(List.idxOf_inj member).mp same.symm] at less
      exact Nat.lt_irrefl _ less

/-- The sum is fed by the image at once and through the layer, so it is two edges deep. -/
theorem schedule_by_depth_branching :
    (Graph.ofDocument branching).wiring.schedule? = some ["image", "left", "sum"] ∧
    (∀ id, IsGreatest {length | branching.PathTo length id} (branching.depth id)) ∧
    ["image", "left", "sum"].Pairwise (fun u v => branching.depth u ≤ branching.depth v) ∧
    ∀ u ∈ ["image", "left", "sum"], ∀ v ∈ ["image", "left", "sum"],
      branching.depth u < branching.depth v →
        ["image", "left", "sum"].idxOf u < ["image", "left", "sum"].idxOf v := by
  have scheduled : (Graph.ofDocument branching).wiring.schedule? =
      some ["image", "left", "sum"] := by
    decide +kernel
  exact ⟨scheduled, schedule_by_depth branching scheduled⟩

end Document

end LayerGraph
