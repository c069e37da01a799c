import LayerGraph.Proofs.Wiring.Search

/-!
# The course of a search

All states in which the search for cycles takes its steps. In each of them the marks agree with the
path and with the arcs looked at. A step is taken on a path once for every arc and every vertex at
most, and no vertex is put on the path twice.
-/

namespace LayerGraph

namespace Wiring

namespace Search

variable {V : Type} [DecidableEq V]

def trace (w : Wiring V) : ℕ → Search V → List (Search V)
  | 0, _ => []
  | fuel + 1, s =>
    s :: match s.step w with
      | .goOn next => trace w fuel next
      | .cyclic | .acyclic => []

/-- The states in which the search that decides `hasCycle` takes its steps. -/
def course (w : Wiring V) : List (Search V) :=
  trace w (w.arcs.length + 2 * w.vertices.length + 1) (start w)

def pushed? (w : Wiring V) (s : Search V) : Option V :=
  match s.step w with
  | .goOn next => if s.path.length < next.path.length then next.trail.head? else none
  | .cyclic | .acyclic => none

def pushes (w : Wiring V) (states : List (Search V)) : List V :=
  states.filterMap (pushed? w)

def rounds (states : List (Search V)) : ℕ :=
  states.countP fun s => !s.path.isEmpty

/-- What the marks say about the path and the arcs looked at, given where the arcs out of every
vertex lead. The path grows inwards, and arcs are looked at from the last to the first. -/
structure Coloured (targets : V → List V) (s : Search V) : Prop where
  onPath : ∀ v, s.mark v = .onPath ↔ v ∈ s.trail
  distinct : s.trail.Nodup
  joined : s.trail.reverse.IsChain fun u v => v ∈ targets u
  looked : ∀ inner v left outer, s.path = inner ++ (v, left) :: outer →
    ∃ seen, (targets v).reverse = seen ++ left ∧
      ∀ next ∈ seen, s.mark next = .done ∨ (inner.map (·.1)).getLast? = some next
  closed : ∀ v, s.mark v = .done → ∀ next ∈ targets v, s.mark next = .done

/-- What a step can still do on the path, until there is none left to begin with. -/
def budget (w : Wiring V) (s : Search V) : ℕ :=
  unread s.path + unexplored w s.mark

variable {w : Wiring V} {s next : Search V}

theorem Consumed.exists_seen {mark : V → Mark} {first : Option V} {inner outer : List (V × List V)}
    {v : V} {left : List V} (consumed : Consumed w mark first (inner ++ (v, left) :: outer)) :
    ∃ seen, (w.successors v).reverse = seen ++ left ∧ ∀ next ∈ seen,
      mark next = .done ∨ (inner.map (·.1)).getLast?.or first = some next := by
  induction inner generalizing first with
  | nil => exact consumed.1
  | cons entry inner ih =>
    obtain ⟨seen, split, done⟩ := ih consumed.2
    refine ⟨seen, split, fun next member => (done next member).imp_right fun last => ?_⟩
    rw [List.map_cons, List.getLast?_cons]
    cases above : (inner.map (·.1)).getLast? <;> simpa [above] using last

theorem Invariant.coloured (invariant : Invariant w none s) : Coloured w.successors s where
  onPath := invariant.onPath
  distinct := invariant.distinct
  joined := by
    rw [List.isChain_reverse]
    exact invariant.joined.imp fun _ _ arc => mem_successors.mpr arc
  looked := by
    intro inner v left outer path
    have consumed := invariant.consumed
    rw [path] at consumed
    simpa using consumed.exists_seen
  closed v done next member := invariant.closed v next done (mem_successors.mp member)

/-- A step puts a vertex on the path that has not been visited, or it visits none. -/
theorem pushed_or_kept (step : s.step w = .goOn next) :
    (∃ v, pushed? w s = some v ∧ s.mark v = .unvisited ∧ next.mark = assign s.mark v .onPath) ∨
    pushed? w s = none ∧ ∀ v, next.mark v = .unvisited → s.mark v = .unvisited := by
  have move := move_step w s
  rw [pushed?, step]
  rw [step] at move
  cases move with
  | @leave v outer path =>
    refine .inr ⟨by simp [path], fun u fresh => ?_⟩
    by_cases same : u = v
    · simp [same] at fresh
    · simpa [assign_of_ne _ _ same] using fresh
  | @descend v child left outer path fresh =>
    exact .inl ⟨child, by simp [enter, trail, path], fresh, rfl⟩
  | pass path done => exact .inr ⟨by simp [path], fun _ => id⟩
  | @begin root roots path split fresh =>
    exact .inl ⟨root, by simp [enter, trail, path], fresh, rfl⟩
  | skip path split visited => exact .inr ⟨by simp, fun _ => id⟩

omit [DecidableEq V] in
theorem rounds_cons (s : Search V) (states : List (Search V)) :
    rounds (s :: states) = rounds states + rounds [s] := by
  simp [rounds, List.countP_cons]

/-- A round uses up one unit of the budget, and a step without a path uses up none. -/
theorem budget_step (wellFormed : w.WellFormed) (invariant : Invariant w none s)
    (step : s.step w = .goOn next) : budget w next + rounds [s] = budget w s := by
  have spent := remaining_step wellFormed invariant step
  have move := move_step w s
  rw [step] at move
  simp only [remaining] at spent
  unfold budget
  cases move with
  | leave path | descend path | pass path =>
    have round : rounds [s] = 1 := by simp [rounds, path]
    simp only [enter, path, round] at spent ⊢
    omega
  | begin path split =>
    have none : rounds [s] = 0 := by simp [rounds, path]
    simp only [enter, path, split, List.length_cons, none] at spent ⊢
    omega
  | skip path => simp [rounds, path]

theorem budget_start (wellFormed : w.WellFormed) :
    budget w (start w) = w.arcs.length + w.vertices.length := by
  have all := remaining_start wellFormed
  rw [remaining, Nat.add_assoc] at all
  change w.vertices.length + budget w (start w) = _ at all
  omega

/-- Where the search ends without a cycle, nothing is left to be done. -/
theorem budget_of_acyclic (invariant : Invariant w none s) (step : s.step w = .acyclic) :
    budget w s = 0 := by
  have move := move_step w s
  rw [step] at move
  cases move with
  | finish path roots =>
    have visited : ∀ v ∈ w.vertices, s.mark v ≠ .unvisited := by
      intro v listed
      simpa [roots] using invariant.pending v listed
    have unexplored : unexplored w s.mark = 0 := by
      refine List.sum_eq_zero fun share member => ?_
      obtain ⟨v, listed, rfl⟩ := List.mem_map.mp member
      exact if_neg (visited v listed)
    simp [budget, unread, path, unexplored]

/-- A round that closes a cycle can be paid for, too. -/
theorem rounds_le_budget (w : Wiring V) (s : Search V) : rounds [s] ≤ budget w s := by
  cases path : s.path with
  | nil => simp [rounds, path]
  | cons entry outer =>
    have round : rounds [s] = 1 := by simp [rounds, path]
    simp only [round, budget, path, unread, List.map_cons, List.sum_cons]
    omega

section Trace

variable (wellFormed : w.WellFormed)

include wellFormed

theorem invariant_of_mem_trace {fuel : ℕ} (invariant : Invariant w none s) {t : Search V}
    (member : t ∈ trace w fuel s) : Invariant w none t := by
  induction fuel generalizing s with
  | zero => contradiction
  | succ fuel ih =>
    rcases List.mem_cons.mp member with rfl | later
    · exact invariant
    · cases step : s.step w with
      | goOn next =>
        rw [step] at later
        exact ih (step_preserves wellFormed invariant step) later
      | cyclic | acyclic =>
        rw [step] at later
        contradiction

/-- The last step taken is the one that gives the answer. Up to it, all rounds are paid for. -/
theorem exists_last {fuel : ℕ} (invariant : Invariant w none s) (enough : remaining w s < fuel) :
    ∃ last, (trace w fuel s).getLast? = some last ∧
      last.step w = (if run w fuel s then .cyclic else .acyclic) ∧
      rounds (trace w fuel s) + budget w last = budget w s + rounds [last] := by
  induction fuel generalizing s with
  | zero => omega
  | succ fuel ih =>
    rw [trace, List.getLast?_cons, rounds_cons]
    cases step : s.step w with
    | goOn next =>
      have spent := remaining_step wellFormed invariant step
      have paid := budget_step wellFormed invariant step
      obtain ⟨last, ends, answer, rest⟩ := ih (step_preserves wellFormed invariant step) (by omega)
      dsimp only
      exact ⟨last, by simp [ends], by simpa only [run, step] using answer, by omega⟩
    | cyclic | acyclic => exact ⟨s, rfl, by simp [run, step], by simp [rounds, Nat.add_comm]⟩

omit wellFormed in
/-- A vertex is put on the path only where it has not been visited, and it has been after that. -/
theorem nodup_pushes (fuel : ℕ) (s : Search V) : (pushes w (trace w fuel s)).Nodup ∧
    ∀ v ∈ pushes w (trace w fuel s), s.mark v = .unvisited := by
  induction fuel generalizing s with
  | zero => exact ⟨.nil, nofun⟩
  | succ fuel ih =>
    rw [trace]
    cases step : s.step w with
    | goOn next =>
      obtain ⟨distinct, fresh⟩ := ih next
      rcases pushed_or_kept step with ⟨v, pushed, unvisited, marked⟩ | ⟨pushed, kept⟩
      · -- What is put on the path later is unvisited in the next state, where this vertex is not.
        have later : ∀ u ∈ pushes w (trace w fuel next), u ≠ v ∧ s.mark u = .unvisited := by
          intro u member
          have unmarked := fresh u member
          rw [marked] at unmarked
          by_cases same : u = v
          · simp [same] at unmarked
          · exact ⟨same, by simpa [assign_of_ne _ _ same] using unmarked⟩
        have split : pushes w (s :: trace w fuel next) = v :: pushes w (trace w fuel next) := by
          rw [pushes, List.filterMap_cons_some pushed]
          rfl
        rw [split, List.nodup_cons]
        refine ⟨⟨fun again => (later v again).1 rfl, distinct⟩, fun u member => ?_⟩
        rcases List.mem_cons.mp member with rfl | member
        · exact unvisited
        · exact (later u member).2
      · have split : pushes w (s :: trace w fuel next) = pushes w (trace w fuel next) := by
          rw [pushes, List.filterMap_cons_none pushed]
          rfl
        rw [split]
        exact ⟨distinct, fun v member => kept v (fresh v member)⟩
    | cyclic | acyclic => simp [pushes, pushed?, step]

end Trace

section Course

variable (wellFormed : w.WellFormed)

include wellFormed

theorem coloured_of_mem_course (member : s ∈ course w) : Coloured w.successors s :=
  (invariant_of_mem_trace wellFormed (start_invariant w) member).coloured

theorem exists_last_course : ∃ last, (course w).getLast? = some last ∧
    last.step w = (if w.hasCycle then .cyclic else .acyclic) ∧
    rounds (course w) + budget w last = w.arcs.length + w.vertices.length + rounds [last] := by
  have enough : remaining w (start w) < w.arcs.length + 2 * w.vertices.length + 1 := by
    rw [remaining_start wellFormed]
    exact Nat.lt_succ_self _
  rw [← budget_start wellFormed]
  exact exists_last wellFormed (start_invariant w) enough

theorem rounds_course_le : rounds (course w) ≤ w.arcs.length + w.vertices.length := by
  obtain ⟨last, _, _, paid⟩ := exists_last_course wellFormed
  have last := rounds_le_budget w last
  omega

/-- A search that finds no cycle looks at every arc and leaves every vertex. -/
theorem rounds_course_eq (acyclic : w.hasCycle = false) :
    rounds (course w) = w.arcs.length + w.vertices.length := by
  obtain ⟨last, ends, answer, paid⟩ := exists_last_course wellFormed
  have invariant : Invariant w none last :=
    invariant_of_mem_trace wellFormed (start_invariant w) (List.mem_of_getLast? ends)
  have nothing : budget w last = 0 := budget_of_acyclic invariant (by simp [answer, acyclic])
  have unpaid := rounds_le_budget w last
  omega

end Course

end Search

end Wiring

end LayerGraph
