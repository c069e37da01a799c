import LayerGraph.Proofs.Wiring.Walk
import LayerGraph.Wiring.Cycle
import Mathlib.Algebra.BigOperators.Group.List.Basic
import Mathlib.Data.List.Chain
import Mathlib.Data.Nat.Cast.Basic

/-!
# Correctness of the search for cycles

The marked path is a walk, and what has been left is closed under successors and free of cycles.
A step either decides the question or uses up one unit of the work that remains, so the search
ends within its bound and finds a cycle exactly if there is one.
-/

namespace LayerGraph

namespace Wiring

namespace Search

variable {V : Type} [DecidableEq V]

/-- The vertices on the current path, innermost first. -/
def trail (s : Search V) : List V :=
  s.path.map (·.1)

inductive Move (w : Wiring V) (s : Search V) : Progress V → Prop where
  | leave {v outer} : s.path = (v, []) :: outer →
      Move w s (.goOn { s with path := outer, mark := assign s.mark v .done })
  | close {v next left outer} : s.path = (v, next :: left) :: outer → s.mark next = .onPath →
      Move w s .cyclic
  | descend {v next left outer} : s.path = (v, next :: left) :: outer →
      s.mark next = .unvisited →
      Move w s (.goOn (enter w { s with path := (v, left) :: outer } next))
  | pass {v next left outer} : s.path = (v, next :: left) :: outer → s.mark next = .done →
      Move w s (.goOn { s with path := (v, left) :: outer })
  | finish : s.path = [] → s.roots = [] → Move w s .acyclic
  | begin {root roots} : s.path = [] → s.roots = root :: roots → s.mark root = .unvisited →
      Move w s (.goOn (enter w { s with roots } root))
  | skip {root roots} : s.path = [] → s.roots = root :: roots → s.mark root ≠ .unvisited →
      Move w s (.goOn { s with roots })

theorem move_step (w : Wiring V) (s : Search V) : Move w s (s.step w) := by
  rcases path : s.path with _ | ⟨⟨v, _ | ⟨next, left⟩⟩, outer⟩
  · rcases roots : s.roots with _ | ⟨root, rest⟩
    · simpa [step, path, roots] using Move.finish path roots
    · by_cases mark : s.mark root = .unvisited
      · simpa [step, path, roots, mark] using Move.begin path roots mark
      · simpa [step, path, roots, mark] using Move.skip path roots mark
  · simpa [step, path] using Move.leave path
  · cases mark : s.mark next with
    | unvisited => simpa [step, path, mark] using Move.descend path mark
    | onPath => simpa [step, path, mark] using Move.close path mark
    | done => simpa [step, path, mark] using Move.pass path mark

/-- Of every vertex on a path, the arcs already looked at lead to vertices that are done, or to
the vertex next on the path. The first argument is the vertex entered from the innermost one. -/
def Consumed (w : Wiring V) (mark : V → Mark) : Option V → List (V × List V) → Prop
  | _, [] => True
  | inner, (v, left) :: outer =>
    (∃ seen, (w.successors v).reverse = seen ++ left ∧
      ∀ next ∈ seen, mark next = .done ∨ inner = some next) ∧
    Consumed w mark (some v) outer

/-- What holds before every step. With a vertex given, an arc to it from the innermost vertex has
been looked at, and the vertex is about to be entered. -/
structure Invariant (w : Wiring V) (inner : Option V) (s : Search V) : Prop where
  onPath : ∀ v, s.mark v = .onPath ↔ v ∈ s.trail
  distinct : s.trail.Nodup
  joined : s.trail.IsChain fun v u => w.Leads u v
  consumed : Consumed w s.mark inner s.path
  closed : ∀ u v, s.mark u = .done → w.Leads u v → s.mark v = .done
  acyclic : ∀ v, s.mark v = .done → ¬ w.Reaches v v
  listed : ∀ v, s.mark v ≠ .unvisited → v ∈ w.vertices
  rooted : ∀ v ∈ s.roots, v ∈ w.vertices
  pending : ∀ v ∈ w.vertices, v ∈ s.roots ∨ s.mark v ≠ .unvisited

theorem start_invariant (w : Wiring V) : Invariant w none (start w) := by
  constructor <;> simp [start, trail, Consumed]

theorem Consumed.mono {w : Wiring V} {mark mark' : V → Mark} {inner inner' : Option V}
    {path : List (V × List V)} (consumed : Consumed w mark inner path)
    (done : ∀ v, mark v = .done → mark' v = .done)
    (entered : ∀ v, inner = some v → mark' v = .done ∨ inner' = some v) :
    Consumed w mark' inner' path := by
  induction path generalizing inner inner' with
  | nil => trivial
  | cons entry outer ih =>
    obtain ⟨⟨seen, split, seenDone⟩, rest⟩ := consumed
    refine ⟨⟨seen, split, fun next member => ?_⟩, ih rest fun _ same => .inr same⟩
    rcases seenDone next member with finished | same
    · exact .inl (done next finished)
    · exact entered next same

theorem mem_vertices_of_unread {w : Wiring V} (wellFormed : w.WellFormed) {inner : Option V}
    {s : Search V} (invariant : Invariant w inner s) {v next : V} {left : List V}
    {outer : List (V × List V)} (path : s.path = (v, next :: left) :: outer) :
    w.Leads v next ∧ next ∈ w.vertices := by
  have consumed := invariant.consumed
  rw [path] at consumed
  obtain ⟨⟨seen, split, _⟩, _⟩ := consumed
  have member : next ∈ (w.successors v).reverse := by simp [split]
  have arc : w.Leads v next := mem_successors.mp (List.mem_reverse.mp member)
  exact ⟨arc, wellFormed.target _ _ arc⟩

/-- Looking at an arc leaves all as it was, except that the vertex behind it is to be entered. -/
theorem look_invariant {w : Wiring V} {s : Search V} (invariant : Invariant w none s)
    {v next : V} {left : List V} {outer : List (V × List V)}
    (path : s.path = (v, next :: left) :: outer) :
    Invariant w (some next) { s with path := (v, left) :: outer } := by
  have trail : trail { s with path := (v, left) :: outer } = s.trail := by
    simp [Search.trail, path]
  have consumed := invariant.consumed
  rw [path] at consumed
  obtain ⟨⟨seen, split, done⟩, rest⟩ := consumed
  refine ⟨?_, ?_, ?_, ⟨⟨seen ++ [next], by simp [split], ?_⟩, rest⟩, invariant.closed,
    invariant.acyclic, invariant.listed, invariant.rooted, invariant.pending⟩
  · rw [trail]
    exact invariant.onPath
  · rw [trail]
    exact invariant.distinct
  · rw [trail]
    exact invariant.joined
  · intro x member
    rcases List.mem_append.mp member with earlier | last
    · exact .inl ((done x earlier).resolve_right (by simp))
    · rw [List.mem_singleton.mp last]
      exact .inr rfl

theorem pass_invariant {w : Wiring V} {s : Search V} {next : V}
    (invariant : Invariant w (some next) s) (done : s.mark next = .done) : Invariant w none s :=
  { invariant with
    consumed := invariant.consumed.mono (fun _ finished => finished) fun v same => by
      obtain rfl := Option.some.inj same
      exact .inl done }

theorem enter_invariant {w : Wiring V} {s : Search V} {next : V}
    (invariant : Invariant w (some next) s) (fresh : s.mark next = .unvisited)
    (listed : next ∈ w.vertices) (arc : ∀ v ∈ s.trail.head?, w.Leads v next) :
    Invariant w none (enter w s next) := by
  have trail : (enter w s next).trail = next :: s.trail := rfl
  have outside : next ∉ s.trail := by
    rw [← invariant.onPath, fresh]
    decide
  have done (v : V) : assign s.mark next .onPath v = .done ↔ s.mark v = .done := by
    by_cases same : v = next
    · simp [same, fresh]
    · rw [assign_of_ne _ _ same]
  refine ⟨fun v => ?_, ?_, ?_, ⟨⟨[], rfl, by simp⟩, ?_⟩, ?_, ?_, ?_, invariant.rooted, ?_⟩
  · rw [trail, List.mem_cons, ← invariant.onPath v]
    by_cases same : v = next
    · simp [enter, same]
    · simp [enter, assign_of_ne _ _ same, same]
  · rw [trail]
    exact List.nodup_cons.mpr ⟨outside, invariant.distinct⟩
  · rw [trail]
    exact List.isChain_cons.mpr ⟨arc, invariant.joined⟩
  · exact invariant.consumed.mono (fun v => (done v).mpr) fun _ same => .inr same
  · intro u v finished step
    exact (done v).mpr (invariant.closed u v ((done u).mp finished) step)
  · intro v finished
    exact invariant.acyclic v ((done v).mp finished)
  · intro v visited
    by_cases same : v = next
    · exact same ▸ listed
    · exact invariant.listed v (by simpa [enter, assign_of_ne _ _ same] using visited)
  · intro v member
    by_cases same : v = next
    · simp [enter, same]
    · simpa [enter, assign_of_ne _ _ same] using invariant.pending v member

/-- All arcs of a vertex about to be left have been looked at. -/
theorem done_of_leads {w : Wiring V} {s : Search V} (invariant : Invariant w none s) {v : V}
    {outer : List (V × List V)} (path : s.path = (v, []) :: outer) {next : V}
    (arc : w.Leads v next) : s.mark next = .done := by
  have consumed := invariant.consumed
  rw [path] at consumed
  obtain ⟨⟨seen, split, done⟩, _⟩ := consumed
  have member : next ∈ (w.successors v).reverse :=
    List.mem_reverse.mpr (mem_successors.mpr arc)
  rw [split, List.append_nil] at member
  exact (done next member).resolve_right (by simp)

/-- A cycle through a vertex about to be left would run through a vertex that is done, and those
lead to such vertices only. -/
theorem not_reaches_self {w : Wiring V} {s : Search V} (invariant : Invariant w none s) {v : V}
    {outer : List (V × List V)} (path : s.path = (v, []) :: outer) : ¬ w.Reaches v v := by
  intro walk
  have onPath : s.mark v = .onPath := (invariant.onPath v).mpr (by simp [trail, path])
  obtain ⟨next, arc, back⟩ := Relation.TransGen.head'_iff.mp walk
  have done := done_of_leads invariant path arc
  have returned : s.mark v = .done := by
    rcases Relation.reflTransGen_iff_eq_or_transGen.mp back with rfl | back
    · exact done
    · exact Reaches.stays invariant.closed back done
  rw [onPath] at returned
  contradiction

theorem leave_invariant {w : Wiring V} {s : Search V} (invariant : Invariant w none s) {v : V}
    {outer : List (V × List V)} (path : s.path = (v, []) :: outer) :
    Invariant w none { s with path := outer, mark := assign s.mark v .done } := by
  have trail : s.trail = v :: outer.map (·.1) := by simp [Search.trail, path]
  have onPath : s.mark v = .onPath := (invariant.onPath v).mpr (by simp [trail])
  have consumed := invariant.consumed
  rw [path] at consumed
  have distinct := invariant.distinct
  rw [trail, List.nodup_cons] at distinct
  have done (x : V) : assign s.mark v .done x = .done ↔ x = v ∨ s.mark x = .done := by
    by_cases same : x = v
    · simp [same]
    · simp [assign_of_ne _ _ same, same]
  refine ⟨fun x => ?_, distinct.2, ?_, ?_, fun u x finished arc => ?_, fun x finished walk => ?_,
    fun x visited => ?_, invariant.rooted, fun x member => ?_⟩
  · by_cases same : x = v
    · simpa [same, Search.trail] using distinct.1
    · simp [Search.trail, assign_of_ne _ _ same, invariant.onPath, path, same]
  · have joined := invariant.joined
    rw [trail] at joined
    exact joined.tail
  · refine consumed.2.mono (fun x finished => (done x).mpr (.inr finished)) fun x same => ?_
    exact .inl ((done x).mpr (.inl (Option.some.inj same).symm))
  · refine (done x).mpr (.inr ?_)
    rcases (done u).mp finished with rfl | finished
    · exact done_of_leads invariant path arc
    · exact invariant.closed u x finished arc
  · rcases (done x).mp finished with rfl | finished
    · exact not_reaches_self invariant path walk
    · exact invariant.acyclic x finished walk
  · by_cases same : x = v
    · exact invariant.listed x (by simp [same, onPath])
    · exact invariant.listed x (by simpa [assign_of_ne _ _ same] using visited)
  · by_cases same : x = v
    · simp [same]
    · simpa [assign_of_ne _ _ same] using invariant.pending x member

theorem root_invariant {w : Wiring V} {s : Search V} (invariant : Invariant w none s)
    {root : V} {roots : List V} (split : s.roots = root :: roots)
    (visited : s.mark root ≠ .unvisited) : Invariant w none { s with roots } := by
  refine { invariant with rooted := fun v member => ?_, pending := fun v member => ?_ }
  · exact invariant.rooted v (by simp [split, member])
  · have waiting := invariant.pending v member
    rw [split, List.mem_cons, or_assoc] at waiting
    rcases waiting with rfl | waiting
    · exact .inr visited
    · exact waiting

theorem begin_invariant {w : Wiring V} {s : Search V} (invariant : Invariant w none s)
    {root : V} {roots : List V} (path : s.path = []) (split : s.roots = root :: roots)
    (fresh : s.mark root = .unvisited) : Invariant w none (enter w { s with roots } root) := by
  have ready : Invariant w (some root) s :=
    { invariant with consumed := by rw [path]; trivial }
  have listed : root ∈ w.vertices := invariant.rooted root (by simp [split])
  have entered := enter_invariant ready fresh listed (by simp [trail, path])
  exact root_invariant entered split (by simp [enter])

theorem step_preserves {w : Wiring V} (wellFormed : w.WellFormed) {s next : Search V}
    (invariant : Invariant w none s) (step : s.step w = .goOn next) : Invariant w none next := by
  have move := move_step w s
  rw [step] at move
  cases move with
  | leave path => exact leave_invariant invariant path
  | descend path fresh =>
    obtain ⟨arc, listed⟩ := mem_vertices_of_unread wellFormed invariant path
    exact enter_invariant (look_invariant invariant path) fresh listed (by simpa [trail] using arc)
  | pass path done => exact pass_invariant (look_invariant invariant path) done
  | begin path split fresh => exact begin_invariant invariant path split fresh
  | skip _ split visited => exact root_invariant invariant split visited

omit [DecidableEq V] in
/-- From every vertex on a path a walk leads to the innermost one. -/
theorem reaches_of_mem_trail {w : Wiring V} {v : V} {outer : List V}
    (joined : (v :: outer).IsChain fun v u => w.Leads u v) {u : V} (member : u ∈ outer) :
    w.Reaches u v := by
  induction outer generalizing v with
  | nil => simp at member
  | cons x outer ih =>
    obtain ⟨arc, joined⟩ := List.isChain_cons_cons.mp joined
    rcases List.mem_cons.mp member with rfl | member
    · exact .single arc
    · exact (ih joined member).tail arc

theorem cyclic_of_step {w : Wiring V} (wellFormed : w.WellFormed) {s : Search V}
    (invariant : Invariant w none s) (step : s.step w = .cyclic) : w.Cyclic := by
  have move := move_step w s
  rw [step] at move
  cases move with
  | @close v next left outer path marked =>
    have trail : s.trail = v :: outer.map (·.1) := by simp [Search.trail, path]
    have joined := invariant.joined
    have member := (invariant.onPath next).mp marked
    have arc := (mem_vertices_of_unread wellFormed invariant path).1
    rw [trail] at joined member
    rcases List.mem_cons.mp member with rfl | member
    · exact ⟨next, .single arc⟩
    · exact ⟨next, (reaches_of_mem_trail joined member).tail arc⟩

theorem not_cyclic_of_step {w : Wiring V} (wellFormed : w.WellFormed) {s : Search V}
    (invariant : Invariant w none s) (step : s.step w = .acyclic) : ¬ w.Cyclic := by
  have move := move_step w s
  rw [step] at move
  cases move with
  | finish path roots =>
    rintro ⟨v, walk⟩
    have listed := walk.source_mem wellFormed
    cases mark : s.mark v with
    | unvisited => simpa [roots, mark] using invariant.pending v listed
    | onPath => simpa [trail, path] using (invariant.onPath v).mp mark
    | done => exact invariant.acyclic v mark walk

/-- The steps that a vertex will still take to be entered and left: one for each of its arcs and
one to leave it, unless it has been visited. -/
def share (w : Wiring V) (v : V) (mark : Mark) : Nat :=
  if mark = .unvisited then w.outgoing v + 1 else 0

def unexplored (w : Wiring V) (mark : V → Mark) : Nat :=
  (w.vertices.map fun v => share w v (mark v)).sum

def unread (path : List (V × List V)) : Nat :=
  (path.map fun entry => entry.2.length + 1).sum

def remaining (w : Wiring V) (s : Search V) : Nat :=
  s.roots.length + unread s.path + unexplored w s.mark

theorem unexplored_assign {w : Wiring V} (wellFormed : w.WellFormed) (mark : V → Mark) {v : V}
    (listed : v ∈ w.vertices) (m : Mark) :
    unexplored w (assign mark v m) + share w v (mark v) =
      unexplored w mark + share w v m := by
  -- The vertex is listed once, so the sum has one part that changes.
  have distinct := wellFormed.distinct
  unfold unexplored
  generalize w.vertices = vertices at listed distinct ⊢
  induction vertices with
  | nil => simp at listed
  | cons u rest ih =>
    obtain ⟨fresh, distinct⟩ := List.nodup_cons.mp distinct
    simp only [List.map_cons, List.sum_cons]
    by_cases same : u = v
    · subst same
      have frame : rest.map (fun x => share w x (assign mark u m x)) =
          rest.map fun x => share w x (mark x) := by
        refine List.map_congr_left fun x inside => ?_
        rw [assign_of_ne mark m (ne_of_mem_of_not_mem inside fresh)]
      rw [frame, assign_self]
      omega
    · have inside := (List.mem_cons.mp listed).resolve_left fun equal => same equal.symm
      have step := ih inside distinct
      rw [assign_of_ne mark m same]
      omega

/-- Entering a vertex moves its share to the path. -/
theorem remaining_enter {w : Wiring V} (wellFormed : w.WellFormed) {s : Search V} {v : V}
    (listed : v ∈ w.vertices) (fresh : s.mark v = .unvisited) :
    remaining w (enter w s v) = remaining w s := by
  have change := unexplored_assign wellFormed s.mark listed .onPath
  simp only [share, fresh, reduceCtorEq, ↓reduceIte] at change
  simp only [remaining, enter, unread, List.map_cons, List.sum_cons, List.length_reverse,
    length_successors]
  omega

/-- Every step but the last uses up one of those that remain. -/
theorem remaining_step {w : Wiring V} (wellFormed : w.WellFormed) {s next : Search V}
    (invariant : Invariant w none s) (step : s.step w = .goOn next) :
    remaining w next + 1 = remaining w s := by
  have move := move_step w s
  rw [step] at move
  cases move with
  | @leave v outer path =>
    have marked : s.mark v = .onPath := (invariant.onPath v).mpr (by simp [trail, path])
    have listed : v ∈ w.vertices := invariant.listed v (by simp [marked])
    have change := unexplored_assign wellFormed s.mark listed .done
    simp only [share, marked, reduceCtorEq, ↓reduceIte] at change
    simp only [remaining, path, unread, List.map_cons, List.sum_cons, List.length_nil]
    omega
  | @descend v child left outer path fresh =>
    obtain ⟨_, listed⟩ := mem_vertices_of_unread wellFormed invariant path
    have entered := remaining_enter (s := { s with path := (v, left) :: outer }) wellFormed
      listed fresh
    rw [entered]
    simp only [remaining, path, unread, List.map_cons, List.sum_cons, List.length_cons]
    omega
  | pass path done =>
    simp only [remaining, path, unread, List.map_cons, List.sum_cons, List.length_cons]
    omega
  | @begin root roots path split fresh =>
    have listed : root ∈ w.vertices := invariant.rooted root (by simp [split])
    have entered := remaining_enter (s := { s with roots }) wellFormed listed fresh
    rw [entered]
    simp only [remaining, split, List.length_cons]
    omega
  | skip path split visited =>
    simp only [remaining, split, List.length_cons]
    omega

theorem remaining_start {w : Wiring V} (wellFormed : w.WellFormed) :
    remaining w (start w) = w.arcs.length + 2 * w.vertices.length := by
  have arcs := wellFormed.sum_outgoing
  have shares : unexplored w (fun _ => .unvisited) = w.arcs.length + w.vertices.length := by
    simp [unexplored, share, List.sum_map_add, arcs]
  simp only [remaining, start, unread, shares, List.map_nil, List.sum_nil]
  omega

theorem run_eq_true_iff {w : Wiring V} (wellFormed : w.WellFormed) {s : Search V}
    (invariant : Invariant w none s) {fuel : Nat} (enough : remaining w s < fuel) :
    run w fuel s = true ↔ w.Cyclic := by
  induction fuel generalizing s with
  | zero => omega
  | succ fuel ih =>
    cases step : s.step w with
    | goOn next =>
      have spent := remaining_step wellFormed invariant step
      simpa only [run, step] using ih (step_preserves wellFormed invariant step) (by omega)
    | cyclic => simpa only [run, step, true_iff] using cyclic_of_step wellFormed invariant step
    | acyclic =>
      simpa only [run, step, Bool.false_eq_true, false_iff] using
        not_cyclic_of_step wellFormed invariant step

end Search

/-- The search decides whether there is a cycle. -/
theorem hasCycle_iff_cyclic {V : Type} [DecidableEq V] {w : Wiring V}
    (wellFormed : w.WellFormed) : w.hasCycle = true ↔ w.Cyclic := by
  refine Search.run_eq_true_iff wellFormed (Search.start_invariant w) ?_
  rw [Search.remaining_start wellFormed]
  exact Nat.lt_succ_self _

end Wiring

end LayerGraph
