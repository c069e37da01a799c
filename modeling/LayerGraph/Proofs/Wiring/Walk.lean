import LayerGraph.Wiring
import Mathlib.Algebra.Ring.Nat
import Mathlib.Data.Set.Finite.Basic
import Mathlib.Logic.Relation
import Mathlib.Order.WellFounded

/-!
# Walks and topological orders

A walk follows one or more arcs, and a cycle is a walk from a vertex to itself. A wiring has an
order in which every arc leads forward only if it has no cycle.
-/

namespace LayerGraph

namespace Wiring

variable {V : Type}

def Leads (w : Wiring V) (u v : V) : Prop :=
  (u, v) ∈ w.arcs

/-- A walk of one or more arcs leads from the first vertex to the second. -/
def Reaches (w : Wiring V) : V → V → Prop :=
  Relation.TransGen w.Leads

def Cyclic (w : Wiring V) : Prop :=
  ∃ v, w.Reaches v v

structure WellFormed (w : Wiring V) : Prop where
  distinct : w.vertices.Nodup
  source : ∀ u v, w.Leads u v → u ∈ w.vertices
  target : ∀ u v, w.Leads u v → v ∈ w.vertices

structure TopologicalOrder [DecidableEq V] (w : Wiring V) (order : List V) : Prop where
  distinct : order.Nodup
  complete : ∀ v, v ∈ order ↔ v ∈ w.vertices
  forward : ∀ u v, w.Leads u v → order.idxOf u < order.idxOf v

theorem Reaches.source_mem {w : Wiring V} (wellFormed : w.WellFormed) {u v : V}
    (walk : w.Reaches u v) : u ∈ w.vertices := by
  induction walk with
  | single arc => exact wellFormed.source _ _ arc
  | tail _ _ ih => exact ih

/-- A walk keeps within any set of vertices that no arc leaves. -/
theorem Reaches.stays {w : Wiring V} {inside : V → Prop}
    (closed : ∀ u v, inside u → w.Leads u v → inside v) {u v : V} (walk : w.Reaches u v)
    (start : inside u) : inside v := by
  induction walk with
  | single arc => exact closed _ _ start arc
  | tail _ arc ih => exact closed _ _ ih arc

theorem TopologicalOrder.perm [DecidableEq V] {w : Wiring V} (wellFormed : w.WellFormed)
    {order : List V} (topological : w.TopologicalOrder order) : order.Perm w.vertices :=
  (List.perm_ext_iff_of_nodup topological.distinct wellFormed.distinct).mpr topological.complete

/-- Among distinct elements, one is not repeated before its place, and that counts those before. -/
theorem idxOf_middle [DecidableEq V] {before after : List V} {v : V}
    (distinct : (before ++ v :: after).Nodup) :
    v ∉ before ∧ (before ++ v :: after).idxOf v = before.length := by
  have fresh : v ∉ before := fun member =>
    (List.nodup_append.mp distinct).2.2 v member v (by simp) rfl
  refine ⟨fresh, ?_⟩
  rw [List.idxOf_append_of_notMem fresh, List.idxOf_cons_self, Nat.add_zero]

/-- The sources of all arcs into a vertex stand before it. -/
theorem TopologicalOrder.mem_of_leads [DecidableEq V] {w : Wiring V} {before after : List V}
    {u v : V} (topological : w.TopologicalOrder (before ++ v :: after)) (arc : w.Leads u v) :
    u ∈ before := by
  have place := (idxOf_middle topological.distinct).2
  have forward := topological.forward u v arc
  by_contra outside
  rw [place, List.idxOf_append_of_notMem outside] at forward
  omega

theorem TopologicalOrder.lt_of_reaches [DecidableEq V] {w : Wiring V} {order : List V}
    (topological : w.TopologicalOrder order) {u v : V} (walk : w.Reaches u v) :
    order.idxOf u < order.idxOf v := by
  induction walk with
  | single arc => exact topological.forward _ _ arc
  | tail _ arc ih => exact ih.trans (topological.forward _ _ arc)

theorem TopologicalOrder.not_cyclic [DecidableEq V] {w : Wiring V} {order : List V}
    (topological : w.TopologicalOrder order) : ¬ w.Cyclic := by
  rintro ⟨v, walk⟩
  exact Nat.lt_irrefl _ (topological.lt_of_reaches walk)

/-- Distinct values share out the elements that a function sends to them. -/
theorem sum_countP [DecidableEq V] {α : Type} (f : α → V) (xs : List α) {values : List V}
    (distinct : values.Nodup) :
    (values.map fun v => xs.countP fun x => f x = v).sum = xs.countP fun x => f x ∈ values := by
  induction values with
  | nil => simp
  | cons v rest ih =>
    obtain ⟨fresh, distinct⟩ := List.nodup_cons.mp distinct
    rw [List.map_cons, List.sum_cons, ih distinct]
    clear ih
    induction xs with
    | nil => rfl
    | cons x xs ih =>
      simp only [List.countP_cons, List.mem_cons, decide_eq_true_eq] at ih ⊢
      by_cases same : f x = v
      · simp only [same, fresh, ↓reduceIte, true_or]
        omega
      · simp only [same, ↓reduceIte, false_or]
        omega

theorem WellFormed.sum_outgoing [DecidableEq V] {w : Wiring V} (wellFormed : w.WellFormed) :
    (w.vertices.map w.outgoing).sum = w.arcs.length := by
  refine (sum_countP (·.1) w.arcs wellFormed.distinct).trans (List.countP_eq_length.mpr ?_)
  rintro ⟨u, v⟩ arc
  exact decide_eq_true (wellFormed.source u v arc)

/-- Among finitely many vertices that each have a predecessor among them, some walk backwards
meets itself. -/
theorem cyclic_of_predecessors {w : Wiring V} {blocked : List V} (start : V)
    (member : start ∈ blocked) (predecessor : ∀ v ∈ blocked, ∃ u ∈ blocked, w.Leads u v) :
    w.Cyclic := by
  -- Without a cycle, walks order the blocked vertices strictly, and a least one has no predecessor.
  by_contra acyclic
  let before (a b : {v // v ∈ blocked}) : Prop := w.Reaches a.val b.val
  have transitive : IsTrans {v // v ∈ blocked} before := ⟨fun _ _ _ => Relation.TransGen.trans⟩
  have irreflexive : Std.Irrefl before := ⟨fun a walk => acyclic ⟨a.val, walk⟩⟩
  have finite : Finite {v // v ∈ blocked} := blocked.finite_toSet.to_subtype
  have wellFounded : WellFounded before := Finite.wellFounded_of_trans_of_irrefl before
  obtain ⟨least, _, minimal⟩ := wellFounded.has_min Set.univ ⟨⟨start, member⟩, trivial⟩
  obtain ⟨u, inside, arc⟩ := predecessor least.val least.property
  exact minimal ⟨u, inside⟩ trivial (.single arc)

end Wiring

end LayerGraph
