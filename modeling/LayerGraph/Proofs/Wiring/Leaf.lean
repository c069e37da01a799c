import LayerGraph.Proofs.Wiring.Scheduling

/-!
# Schedules without a leaf

A leaf is a vertex that no arc leaves. Scheduling without it is scheduling with it in which the leaf
is not looked at: every other step does the same, and the step that emits the leaf does nothing. So
a leaf can be taken out of a schedule, and all other vertices keep their order.
-/

namespace LayerGraph

namespace Wiring

variable {V : Type} [DecidableEq V]

def without (w : Wiring V) (v : V) : Wiring V :=
  ⟨w.vertices.filter fun u => u ≠ v, w.arcs.filter fun arc => arc.2 ≠ v⟩

def Leaf (w : Wiring V) (v : V) : Prop :=
  ∀ u, ¬ w.Leads v u

variable {w : Wiring V} {v : V}

theorem Leaf.successors_eq_nil (leaf : w.Leaf v) : w.successors v = [] := by
  rw [List.eq_nil_iff_forall_not_mem]
  exact fun u member => leaf u (mem_successors.mp member)

theorem successors_without (w : Wiring V) (u v : V) :
    (w.without v).successors u = (w.successors u).filter fun x => x ≠ v := by
  simp only [successors, without, List.filter_map, List.filter_filter, Function.comp_def,
    Bool.and_comm]

theorem predecessors_without (w : Wiring V) {u v : V} (apart : u ≠ v) :
    (w.without v).predecessors u = w.predecessors u := by
  unfold predecessors without
  rw [List.filter_filter]
  congr 1
  refine List.filter_congr fun arc _ => ?_
  by_cases here : arc.2 = u
  · simp [here, apart]
  · simp [here]

theorem incoming_without (w : Wiring V) (v : V) :
    (w.without v).incoming = assign w.incoming v 0 := by
  funext u
  unfold incoming without
  rw [List.countP_filter]
  by_cases same : u = v
  · subst same
    rw [assign_self, List.countP_eq_zero]
    simp
  · rw [assign_of_ne _ _ same]
    refine List.countP_congr fun arc _ => ?_
    simp only [ne_eq, Bool.and_eq_true, decide_eq_true_eq]
    exact and_iff_left_of_imp fun target => target ▸ same

theorem wellFormed_without (wellFormed : w.WellFormed) (leaf : w.Leaf v) :
    (w.without v).WellFormed := by
  have arcs {x y : V} (arc : (w.without v).Leads x y) : w.Leads x y ∧ y ≠ v := by
    simpa [Leads, without] using arc
  refine ⟨wellFormed.distinct.filter _, fun x y arc => ?_, fun x y arc => ?_⟩
  · have apart : x ≠ v := fun same => leaf y (same ▸ (arcs arc).1)
    simpa [without, apart] using wellFormed.source x y (arcs arc).1
  · simpa [without, (arcs arc).2] using wellFormed.target x y (arcs arc).1

namespace Scheduling

def without (s : Scheduling V) (v : V) : Scheduling V :=
  ⟨assign s.waiting v 0, s.queue.filter fun u => u ≠ v, s.order.filter fun u => u ≠ v⟩

theorem start_without (w : Wiring V) (v : V) : (start w).without v = start (w.without v) := by
  have queue : (w.vertices.filter fun u => w.incoming u = 0).filter (fun u => u ≠ v) =
      (w.vertices.filter fun u => u ≠ v).filter fun u => (w.without v).incoming u = 0 := by
    rw [List.filter_filter, List.filter_filter, incoming_without]
    refine List.filter_congr fun u _ => ?_
    by_cases same : u = v
    · simp [same]
    · simp [same, assign_of_ne _ _ same]
  simp only [start, without, List.filter_nil, incoming_without] at queue ⊢
  rw [queue]
  rfl

theorem release_without_self (s : Scheduling V) (v : V) :
    (s.release v).without v = s.without v := by
  have waiting : assign (s.release v).waiting v 0 = assign s.waiting v 0 := by
    funext u
    by_cases same : u = v
    · subst same
      rw [assign_self, assign_self]
    · rw [assign_of_ne _ _ same, assign_of_ne _ _ same, waiting_release_of_ne s same]
  have queue : (s.release v).queue.filter (fun u => u ≠ v) = s.queue.filter fun u => u ≠ v := by
    unfold release
    dsimp only
    split
    · simp
    · rfl
  rw [without, waiting, queue, order_release, without]

theorem release_without_of_ne (s : Scheduling V) {u v : V} (apart : u ≠ v) :
    (s.release u).without v = (s.without v).release u := by
  have left : (s.without v).waiting u = s.waiting u := assign_of_ne _ _ apart
  have waiting : assign (s.release u).waiting v 0 = ((s.without v).release u).waiting := by
    funext x
    by_cases same : x = v
    · subst same
      rw [assign_self, waiting_release_of_ne _ (Ne.symm apart)]
      exact (assign_self _ _ _).symm
    · rw [assign_of_ne _ _ same]
      by_cases here : x = u
      · subst here
        rw [waiting_release_self, waiting_release_self, left]
      · rw [waiting_release_of_ne _ here, waiting_release_of_ne _ here]
        exact (assign_of_ne _ _ same).symm
  have queue : (s.release u).queue.filter (fun x => x ≠ v) = ((s.without v).release u).queue := by
    unfold release
    dsimp only
    rw [left]
    split
    · simp [without, apart]
    · rfl
  rw [without, waiting, queue]
  rfl

theorem releases_without (left : List V) (s : Scheduling V) (v : V) :
    (left.foldl release s).without v =
      (left.filter fun u => u ≠ v).foldl release (s.without v) := by
  induction left generalizing s with
  | nil => rfl
  | cons u left ih =>
    rw [List.foldl_cons, ih]
    by_cases same : u = v
    · subst same
      rw [release_without_self, List.filter_cons_of_neg (by simp)]
    · rw [release_without_of_ne s same, List.filter_cons_of_pos (by simpa using same),
        List.foldl_cons]

/-- A step that emits the leaf is not seen without it, and any other step is the same step. -/
theorem step_without (leaf : w.Leaf v) {s next : Scheduling V} (step : s.step? w = some next) :
    next.without v = s.without v ∨ (s.without v).step? (w.without v) = some (next.without v) := by
  unfold step? at step
  split at step
  · contradiction
  · rename_i u queue split
    obtain rfl := Option.some.inj step
    by_cases same : u = v
    · subst same
      left
      simp [leaf.successors_eq_nil, without, split]
    · right
      have first : (s.without v).queue = u :: queue.filter fun x => x ≠ v := by
        simp [without, split, same]
      rw [step?, first]
      dsimp only
      rw [successors_without, releases_without]
      simp [without, same]

theorem step?_eq_none_iff {s : Scheduling V} : s.step? w = none ↔ s.queue = [] := by
  unfold step?
  split
  · rename_i stopped
    simp [stopped]
  · rename_i split
    simp [split]

/-- A run with the leaf is a run without it, of as many steps at most. -/
theorem run_without (leaf : w.Leaf v) (fuel : Nat) (s : Scheduling V) :
    ∃ fuel', (run w fuel s).without v = run (w.without v) fuel' (s.without v) := by
  induction fuel generalizing s with
  | zero => exact ⟨0, rfl⟩
  | succ fuel ih =>
    cases step : s.step? w with
    | none => exact ⟨0, by simp only [run, step]⟩
    | some next =>
      obtain ⟨fuel', same⟩ := ih next
      simp only [run, step]
      rcases step_without leaf step with still | moved
      · exact ⟨fuel', still ▸ same⟩
      · exact ⟨fuel' + 1, by simp only [run, moved, same]⟩

/-- Two runs from one state that end with an empty queue end in one state. -/
theorem run_unique {s : Scheduling V} {fuel fuel' : Nat} (stopped : (run w fuel s).queue = [])
    (stopped' : (run w fuel' s).queue = []) : run w fuel s = run w fuel' s := by
  have still {s : Scheduling V} (empty : s.queue = []) (fuel : Nat) : run w fuel s = s := by
    cases fuel with
    | zero => rfl
    | succ fuel => simp only [run, step?_eq_none_iff.mpr empty]
  induction fuel generalizing fuel' s with
  | zero => exact (still stopped fuel').symm
  | succ fuel ih =>
    cases fuel' with
    | zero => exact still stopped' _
    | succ fuel' =>
      cases step : s.step? w with
      | none => simp only [run, step]
      | some next =>
        simp only [run, step] at stopped stopped' ⊢
        exact ih stopped stopped'

theorem final_without (wellFormed : w.WellFormed) (leaf : w.Leaf v) :
    (final w).without v = final (w.without v) := by
  obtain ⟨fuel, same⟩ := run_without leaf w.vertices.length (start w)
  rw [start_without] at same
  have stopped : ((final w).without v).queue = [] := by
    simp [without, (final_invariant wellFormed).2]
  refine same.trans (run_unique (same ▸ stopped) ?_)
  exact (final_invariant (wellFormed_without wellFormed leaf)).2

end Scheduling

/-- Without a leaf, a schedule is the same but for the leaf. -/
theorem schedule?_without (wellFormed : w.WellFormed) (leaf : w.Leaf v) {order : List V}
    (scheduled : w.schedule? = some order) :
    (w.without v).schedule? = some (order.filter fun u => u ≠ v) := by
  have perm := (topologicalOrder_of_schedule? wellFormed scheduled).perm wellFormed
  obtain ⟨_, last⟩ := schedule?_eq_some_iff.mp scheduled
  have order' : (Scheduling.final (w.without v)).order = order.filter fun u => u ≠ v := by
    rw [← Scheduling.final_without wellFormed leaf, ← last]
    rfl
  refine schedule?_eq_some_iff.mpr ⟨?_, order'⟩
  rw [order']
  exact (perm.filter _).length_eq.ge

end Wiring

end LayerGraph
