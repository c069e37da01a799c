import LayerGraph.Proofs.Wiring.Walk
import LayerGraph.Wiring.Schedule

/-!
# Correctness of scheduling

While arcs are walked, what a vertex waits for is the number of arcs into it that have not been
walked. So a vertex joins the queue once, after all vertices that lead to it were emitted, and
the vertices never emitted are those behind a cycle.
-/

namespace LayerGraph

namespace Wiring

namespace Scheduling

variable {V : Type} [DecidableEq V]

def unwalked (w : Wiring V) (order : List V) (v : V) : Nat :=
  w.arcs.countP fun arc => arc.2 = v ∧ arc.1 ∉ order

/-- What holds throughout scheduling. The list holds the targets of those arcs of the vertex
emitted last that have still to be walked. -/
structure Invariant (w : Wiring V) (left : List V) (s : Scheduling V) : Prop where
  waiting : ∀ v, s.waiting v = unwalked w s.order v + left.count v
  ready : ∀ v, v ∈ s.order ++ s.queue ↔ v ∈ w.vertices ∧ s.waiting v = 0
  distinct : (s.order ++ s.queue).Nodup
  forward : ∀ v ∈ s.order, ∀ u, w.Leads u v → s.order.idxOf u < s.order.idxOf v

theorem start_invariant {w : Wiring V} (wellFormed : w.WellFormed) :
    Invariant w [] (start w) := by
  refine ⟨fun v => ?_, fun v => ?_, ?_, by simp [start]⟩
  · simp [start, unwalked, incoming]
  · simp [start]
  · simpa [start] using wellFormed.distinct.filter _

@[simp] theorem order_release (s : Scheduling V) (v : V) : (s.release v).order = s.order :=
  rfl

@[simp] theorem waiting_release_self (s : Scheduling V) (v : V) :
    (s.release v).waiting v = s.waiting v - 1 := by
  simp [release]

theorem waiting_release_of_ne (s : Scheduling V) {u v : V} (other : u ≠ v) :
    (s.release v).waiting u = s.waiting u := by
  simp [release, assign_of_ne _ _ other]

/-- An arc that has not been walked is still waited for, so nothing is taken from zero. -/
theorem waiting_pos {w : Wiring V} {next : V} {left : List V} {s : Scheduling V}
    (invariant : Invariant w (next :: left) s) : 0 < s.waiting next := by
  rw [invariant.waiting next, List.count_cons_self]
  omega

theorem waiting_release {w : Wiring V} {next : V} {left : List V} {s : Scheduling V}
    (invariant : Invariant w (next :: left) s) (v : V) :
    (s.release next).waiting v = unwalked w s.order v + left.count v := by
  have before := invariant.waiting v
  by_cases same : v = next
  · subst same
    rw [List.count_cons_self] at before
    rw [waiting_release_self]
    omega
  · rw [List.count_cons_of_ne (Ne.symm same)] at before
    rwa [waiting_release_of_ne s same]

theorem release_invariant {w : Wiring V} {next : V} {left : List V} {s : Scheduling V}
    (invariant : Invariant w (next :: left) s) (listed : next ∈ w.vertices) :
    Invariant w left (s.release next) := by
  have positive := waiting_pos invariant
  have outside : next ∉ s.order ++ s.queue := by
    rw [invariant.ready]
    omega
  by_cases last : s.waiting next - 1 = 0
  · have queue : (s.release next).queue = s.queue ++ [next] := by simp [release, last]
    refine ⟨waiting_release invariant, fun v => ?_, ?_, invariant.forward⟩
    · rw [order_release, queue, ← List.append_assoc, List.mem_append, List.mem_singleton]
      by_cases same : v = next
      · simp [same, listed, last]
      · simp [same, waiting_release_of_ne s same, ← invariant.ready]
    · rw [order_release, queue, ← List.append_assoc]
      exact List.nodup_append.mpr ⟨invariant.distinct, by simp, by grind⟩
  · have queue : (s.release next).queue = s.queue := by simp [release, last]
    refine ⟨waiting_release invariant, fun v => ?_, ?_, invariant.forward⟩
    · rw [order_release, queue]
      by_cases same : v = next
      · simp [same, last, outside]
      · rw [waiting_release_of_ne s same, invariant.ready]
    · rw [order_release, queue]
      exact invariant.distinct

theorem releases_invariant {w : Wiring V} {left : List V} {s : Scheduling V}
    (invariant : Invariant w left s) (listed : ∀ v ∈ left, v ∈ w.vertices) :
    Invariant w [] (left.foldl release s) := by
  induction left generalizing s with
  | nil => exact invariant
  | cons next left ih =>
    exact ih (release_invariant invariant (listed next (by simp)))
      fun v member => listed v (by simp [member])

/-- Emitting a vertex turns the arcs out of it into arcs to be walked. -/
theorem unwalked_emit (w : Wiring V) {order : List V} {v : V} (fresh : v ∉ order) (x : V) :
    unwalked w (order ++ [v]) x + (w.successors v).count x = unwalked w order x := by
  unfold unwalked successors
  induction w.arcs with
  | nil => rfl
  | cons arc arcs ih =>
    simp only [List.countP_cons, List.filter_cons] at ih ⊢
    by_cases source : arc.1 = v
    · by_cases target : arc.2 = x <;> simp [source, target, fresh] at ih ⊢ <;> omega
    · by_cases target : arc.2 = x <;> simp [source, target] at ih ⊢ <;> omega

theorem unwalked_eq_zero {w : Wiring V} {order : List V} {v : V}
    (walked : unwalked w order v = 0) {u : V} (arc : w.Leads u v) : u ∈ order := by
  by_contra outside
  have none := List.countP_eq_zero.mp walked _ arc
  simp [outside] at none

theorem emit_invariant {w : Wiring V} {s : Scheduling V} (invariant : Invariant w [] s) {v : V}
    {queue : List V} (split : s.queue = v :: queue) :
    Invariant w (w.successors v) { s with queue, order := s.order ++ [v] } := by
  have distinct := invariant.distinct
  rw [split] at distinct
  have fresh : v ∉ s.order := by
    intro member
    simpa using (List.nodup_append.mp distinct).2.2 v member
  have ready : s.waiting v = 0 := ((invariant.ready v).mp (by simp [split])).2
  have walked : unwalked w s.order v = 0 := by
    have := invariant.waiting v
    omega
  refine ⟨fun x => ?_, fun x => ?_, by simpa using distinct, fun x member u arc => ?_⟩
  · rw [unwalked_emit w fresh x]
    simpa using invariant.waiting x
  · rw [← invariant.ready, split]
    simp
  · rcases List.mem_append.mp member with earlier | last
    · have before := invariant.forward x earlier u arc
      have inside : u ∈ s.order :=
        List.idxOf_lt_length_iff.mp (before.trans (List.idxOf_lt_length_of_mem earlier))
      rwa [List.idxOf_append_of_mem inside, List.idxOf_append_of_mem earlier]
    · obtain rfl := List.mem_singleton.mp last
      have inside := unwalked_eq_zero walked arc
      rw [List.idxOf_append_of_mem inside, List.idxOf_append_of_notMem fresh]
      exact Nat.lt_of_lt_of_le (List.idxOf_lt_length_of_mem inside) (Nat.le_add_right _ _)

theorem step_preserves {w : Wiring V} (wellFormed : w.WellFormed) {s next : Scheduling V}
    (invariant : Invariant w [] s) (step : s.step? w = some next) : Invariant w [] next := by
  unfold step? at step
  split at step
  · contradiction
  · rename_i v queue split
    obtain rfl := Option.some.inj step
    exact releases_invariant (emit_invariant invariant split) fun x member =>
      wellFormed.target _ _ (mem_successors.mp member)

theorem order_releases (left : List V) (s : Scheduling V) :
    (left.foldl release s).order = s.order := by
  induction left generalizing s with
  | nil => rfl
  | cons next left ih => exact ih (s.release next)

theorem length_order_step {w : Wiring V} {s next : Scheduling V}
    (step : s.step? w = some next) : next.order.length = s.order.length + 1 := by
  unfold step? at step
  split at step
  · contradiction
  · obtain rfl := Option.some.inj step
    simp [order_releases]

theorem length_le {w : Wiring V} {left : List V} {s : Scheduling V}
    (invariant : Invariant w left s) :
    s.order.length + s.queue.length ≤ w.vertices.length := by
  rw [← List.length_append]
  exact (invariant.distinct.subperm fun v member => ((invariant.ready v).mp member).1).length_le

/-- With a step for every vertex not emitted, a run ends with an empty queue. -/
theorem run_invariant {w : Wiring V} (wellFormed : w.WellFormed) {fuel : Nat}
    {s : Scheduling V} (invariant : Invariant w [] s)
    (enough : w.vertices.length ≤ s.order.length + fuel) :
    Invariant w [] (run w fuel s) ∧ (run w fuel s).queue = [] := by
  -- Each step emits a vertex, so fuel and vertices not emitted run out together.
  induction fuel generalizing s with
  | zero =>
    have bound := length_le invariant
    exact ⟨invariant, List.eq_nil_of_length_eq_zero (by simp only [run]; omega)⟩
  | succ fuel ih =>
    cases step : s.step? w with
    | none =>
      have stopped : s.queue = [] := by
        unfold step? at step
        split at step
        · assumption
        · contradiction
      simpa only [run, step] using ⟨invariant, stopped⟩
    | some next =>
      have longer := length_order_step step
      simpa only [run, step] using ih (step_preserves wellFormed invariant step) (by omega)

def final (w : Wiring V) : Scheduling V :=
  run w w.vertices.length (start w)

theorem final_invariant {w : Wiring V} (wellFormed : w.WellFormed) :
    Invariant w [] (final w) ∧ (final w).queue = [] :=
  run_invariant wellFormed (start_invariant wellFormed) (Nat.le_add_left _ _)

/-- Where the queue is empty, every vertex not emitted waits for another such vertex. -/
theorem cyclic_of_stuck {w : Wiring V} (wellFormed : w.WellFormed) {s : Scheduling V}
    (invariant : Invariant w [] s) (stopped : s.queue = []) {v : V} (listed : v ∈ w.vertices)
    (left : v ∉ s.order) : w.Cyclic := by
  have start : v ∈ w.vertices.filter (· ∉ s.order) := by simp [listed, left]
  refine cyclic_of_predecessors v start fun x member => ?_
  obtain ⟨inside, waits⟩ : x ∈ w.vertices ∧ x ∉ s.order := by simpa using member
  have positive : unwalked w s.order x ≠ 0 := by
    intro walked
    apply waits
    have ready := (invariant.ready x).mpr ⟨inside, by simpa [walked] using invariant.waiting x⟩
    simpa [stopped] using ready
  obtain ⟨⟨u, target⟩, arc, same, outside⟩ : ∃ arc ∈ w.arcs, arc.2 = x ∧ arc.1 ∉ s.order := by
    simpa [unwalked] using positive
  subst same
  exact ⟨u, by simp [wellFormed.source _ _ arc, outside], arc⟩

/-- A state with an empty queue in which every vertex was emitted holds a topological order. -/
theorem topologicalOrder_of_emitted {w : Wiring V} (wellFormed : w.WellFormed)
    {s : Scheduling V} (invariant : Invariant w [] s) (stopped : s.queue = [])
    (emitted : w.vertices.length ≤ s.order.length) : w.TopologicalOrder s.order := by
  have ready := invariant.ready
  have distinct := invariant.distinct
  rw [stopped, List.append_nil] at ready distinct
  have inside : s.order ⊆ w.vertices := fun v member => ((ready v).mp member).1
  have perm := (distinct.subperm inside).perm_of_length_le emitted
  refine ⟨distinct, fun v => perm.mem_iff, fun u v arc => ?_⟩
  exact invariant.forward v (perm.mem_iff.mpr (wellFormed.target u v arc)) u arc

end Scheduling

variable {V : Type} [DecidableEq V]

theorem schedule?_eq_some_iff {w : Wiring V} {order : List V} : w.schedule? = some order ↔
    w.vertices.length ≤ (Scheduling.final w).order.length ∧ (Scheduling.final w).order = order := by
  simp [schedule?, Scheduling.final]

theorem schedule?_eq_none_iff {w : Wiring V} : w.schedule? = none ↔
    (Scheduling.final w).order.length < w.vertices.length := by
  simp [schedule?, Scheduling.final]

theorem topologicalOrder_of_schedule? {w : Wiring V} (wellFormed : w.WellFormed)
    {order : List V} (scheduled : w.schedule? = some order) : w.TopologicalOrder order := by
  obtain ⟨emitted, rfl⟩ := schedule?_eq_some_iff.mp scheduled
  obtain ⟨invariant, stopped⟩ := Scheduling.final_invariant wellFormed
  exact Scheduling.topologicalOrder_of_emitted wellFormed invariant stopped emitted

/-- Scheduling fails exactly on wirings with a cycle. -/
theorem schedule?_eq_none_iff_cyclic {w : Wiring V} (wellFormed : w.WellFormed) :
    w.schedule? = none ↔ w.Cyclic := by
  constructor
  · intro failed
    obtain ⟨invariant, stopped⟩ := Scheduling.final_invariant wellFormed
    by_contra acyclic
    have emitted : w.vertices ⊆ (Scheduling.final w).order := by
      intro v listed
      by_contra left
      exact acyclic (Scheduling.cyclic_of_stuck wellFormed invariant stopped listed left)
    have length := (wellFormed.distinct.subperm emitted).length_le
    exact Nat.not_lt.mpr length (schedule?_eq_none_iff.mp failed)
  · intro cyclic
    cases scheduled : w.schedule? with
    | none => rfl
    | some order =>
      have topological := topologicalOrder_of_schedule? wellFormed scheduled
      exact absurd cyclic topological.not_cyclic

end Wiring

end LayerGraph
