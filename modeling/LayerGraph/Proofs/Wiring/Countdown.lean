import LayerGraph.Proofs.Except
import LayerGraph.Proofs.Wiring.Leaf
import LayerGraph.Proofs.Wiring.Numbering

/-!
# Scheduling by counters

Scheduling can be done on places, with a list of counters that are counted down and with every
access checked. No check ever fails, cycle or not: a counter is the number of arcs into its place
that have not been walked, so it is above zero when one of them is. The vertices come out in the
order in which `Scheduling` emits them.
-/

namespace LayerGraph

theorem filterM_eq_ok {ε α : Type} {p : α → Except ε Bool} {q : α → Bool} {list : List α}
    (each : ∀ x ∈ list, p x = .ok (q x)) : list.filterM p = .ok (list.filter q) := by
  have aux (kept : List α) :
      list.filterAuxM p kept = .ok ((list.filter q).reverse ++ kept) := by
    induction list generalizing kept with
    | nil => rfl
    | cons x rest ih =>
      have later := ih fun y member => each y (List.mem_cons_of_mem _ member)
      rw [List.filterAuxM, each x (List.mem_cons_self ..), ok_bind, later]
      cases here : q x <;> simp [here]
  rw [List.filterM, aux, ok_bind, List.append_nil, List.reverse_reverse, pure_eq_ok]

/-- What satisfies one of two conditions, of which no element satisfies both. -/
theorem filter_or_perm {α : Type} {p q : α → Bool} {list : List α}
    (apart : ∀ x ∈ list, q x = true → p x = false) :
    (list.filter fun x => p x || q x).Perm (list.filter p ++ list.filter q) := by
  have first : (list.filter fun x => p x || q x).filter p = list.filter p := by
    rw [List.filter_filter]
    exact List.filter_congr fun x _ => by cases p x <;> simp
  have second : (list.filter fun x => p x || q x).filter (fun x => !p x) = list.filter q := by
    rw [List.filter_filter]
    refine List.filter_congr fun x member => ?_
    cases here : q x with
    | true => simp [apart x member here]
    | false => cases p x <;> rfl
  rw [← first, ← second]
  exact (List.filter_append_perm p _).symm

theorem filter_concat_perm {arcs : List (ℕ × ℕ)} {places : List ℕ} {place : ℕ}
    (fresh : place ∉ places) :
    ((arcs.filter fun arc => arc.1 ∈ places) ++ arcs.filter fun arc => arc.1 = place).Perm
      (arcs.filter fun arc => arc.1 ∈ places ++ [place]) := by
  simp only [List.mem_append, List.mem_singleton, Bool.decide_or]
  refine (filter_or_perm fun arc _ source => ?_).symm
  rw [decide_eq_true_iff] at source
  exact decide_eq_false (source ▸ fresh)

theorem map_idxOf_self {α : Type} [DecidableEq α] {list : List α} (distinct : list.Nodup) :
    list.map list.idxOf = List.range list.length := by
  refine List.ext_getElem (by simp) fun place inside _ => ?_
  simp [distinct.idxOf_getElem]

/-- In a list of values, that of one element is changed at its place. -/
theorem set_idxOf_map {α β : Type} [DecidableEq α] {list : List α} (distinct : list.Nodup)
    (f : α → β) {v : α} (member : v ∈ list) (x : β) :
    (list.map f).set (list.idxOf v) x = list.map (assign f v x) := by
  refine List.ext_getElem (by simp) fun place bound _ => ?_
  have inside : place < list.length := by simpa using bound
  have here : list.idxOf v = place ↔ list[place] = v := by
    constructor
    · rintro rfl
      exact List.getElem_idxOf inside
    · rintro rfl
      exact distinct.idxOf_getElem place inside
  rw [List.getElem_set, List.getElem_map, List.getElem_map, assign]
  exact if_congr here rfl rfl

namespace Wiring

/-- A run of one more step ends with that step, if there is one. -/
theorem Scheduling.run_succ {V : Type} [DecidableEq V] (w : Wiring V) (fuel : ℕ)
    (s : Scheduling V) : run w (fuel + 1) s = ((run w fuel s).step? w).getD (run w fuel s) := by
  induction fuel generalizing s with
  | zero => cases step : s.step? w <;> simp [run, step]
  | succ fuel ih =>
    rw [run]
    cases step : s.step? w with
    | none => simp [run, step]
    | some next => simpa only [run, step] using ih next

/-- The arcs out of a vertex, from its successors. -/
theorem map_successors {V : Type} [DecidableEq V] (w : Wiring V) (v : V) :
    (w.successors v).map (fun next => (v, next)) = w.arcs.filter fun arc => arc.1 = v := by
  rw [successors, List.map_map]
  refine (List.map_congr_left fun arc member => ?_).trans (List.map_id _)
  have source : arc.1 = v := by simpa using (List.mem_filter.mp member).2
  rw [Function.comp_apply, ← source, id]

/-- The ways in which an unchecked access would go wrong. -/
inductive Fault where
  | outOfRange
  | belowZero
  deriving DecidableEq, Repr

/-- A point of scheduling by counters: the counter of every place, the places in the queue, the
vertices emitted, and the arcs of the last of them that have still to be walked. The arcs walked so
far and the places that have entered the queue are kept for the record. -/
structure Countdown (V : Type) where
  counters : List ℕ
  queue : List ℕ
  order : List V
  left : List (ℕ × ℕ)
  walked : List (ℕ × ℕ)
  entered : List ℕ
  deriving DecidableEq, Repr

namespace Countdown

variable {V : Type} [DecidableEq V]

def read {α : Type} (list : List α) (place : ℕ) : Except Fault α :=
  match list[place]? with
  | none => .error .outOfRange
  | some x => .ok x

def decrease : ℕ → Except Fault ℕ
  | 0 => .error .belowZero
  | count + 1 => .ok count

def counts (w : Wiring V) : List ℕ :=
  (List.range w.vertices.length).map fun place => (w.numbered.predecessors place).length

def start (w : Wiring V) : Except Fault (Countdown V) := do
  let queue ← (List.range w.vertices.length).filterM fun place => do
    let count ← read (counts w) place
    return count = 0
  return ⟨counts w, queue, [], [], [], queue⟩

/-- Walks an arc. Its end enters the queue if that was the last arc into it. -/
def walk (point : Countdown V) (arc : ℕ × ℕ) (left : List (ℕ × ℕ)) :
    Except Fault (Countdown V) := do
  let before ← read point.counters arc.2
  let count ← decrease before
  let ready := if count = 0 then [arc.2] else []
  return { point with
    counters := point.counters.set arc.2 count
    queue := point.queue ++ ready
    left
    walked := point.walked ++ [arc]
    entered := point.entered ++ ready }

def emit (w : Wiring V) (point : Countdown V) (place : ℕ) (queue : List ℕ) :
    Except Fault (Countdown V) := do
  let v ← read w.vertices place
  return { point with
    queue
    order := point.order ++ [v]
    left := (w.numbered.successors place).map fun next => (place, next) }

/-- Goes on by one arc, or by one vertex if no arc is left. At the end nothing happens. -/
def step (w : Wiring V) (point : Countdown V) : Except Fault (Countdown V) :=
  match point.left, point.queue with
  | arc :: left, _ => walk point arc left
  | [], place :: queue => emit w point place queue
  | [], [] => .ok point

def after (w : Wiring V) : ℕ → Except Fault (Countdown V)
  | 0 => start w
  | n + 1 => do
    let point ← after w n
    step w point

def steps (point : Countdown V) : ℕ :=
  point.walked.length + point.order.length

def Finished (point : Countdown V) : Prop :=
  point.queue = [] ∧ point.left = []

/-- A point with so many places and with these arcs, some of which have not been walked: they are
what the counters count. No place has entered the queue twice, and the queue holds those that have
not been taken from it to emit their vertices. -/
structure Balanced (point : Countdown V) (places : ℕ) (arcs unwalked : List (ℕ × ℕ)) : Prop where
  split : (point.walked ++ unwalked).Perm arcs
  counters : point.counters =
    (List.range places).map fun place => unwalked.countP fun arc => arc.2 = place
  inside : ∀ place ∈ point.entered, place < places
  once : point.entered.Nodup
  queue : point.queue = point.entered.drop point.order.length
  emitted : point.order.length ≤ places

structure Matches (point : Countdown V) (w : Wiring V) (s : Scheduling V) : Prop where
  counters : point.counters = w.vertices.map s.waiting
  queue : point.queue = s.queue.map w.vertices.idxOf
  order : point.order = s.order

/-- The point is where scheduling by vertices is, in the midst of walking the arcs to some of
them. -/
structure Simulates (w : Wiring V) (point : Countdown V) (left : List V) (s : Scheduling V) :
    Prop extends point.Matches w s where
  invariant : s.Invariant w left
  listed : ∀ v ∈ left, v ∈ w.vertices
  round : left.foldl .release s = Scheduling.run w s.order.length (.start w)
  left : point.left.map (·.2) = left.map w.vertices.idxOf
  entered : point.entered = s.order.map w.vertices.idxOf ++ point.queue
  walked : (point.walked ++ point.left).Perm
    (w.numbered.arcs.filter fun arc => arc.1 ∈ s.order.map w.vertices.idxOf)

theorem read_eq_ok {α : Type} {list : List α} {place : ℕ} {x : α}
    (here : list[place]? = some x) : read list place = .ok x := by
  rw [read, here]

theorem decrease_of_pos {count : ℕ} (positive : 0 < count) :
    decrease count = .ok (count - 1) := by
  obtain ⟨count, rfl⟩ := Nat.exists_eq_add_one.mpr positive
  rfl

section Step

variable {w : Wiring V} {point : Countdown V}

theorem step_of_left {arc : ℕ × ℕ} {left : List (ℕ × ℕ)} (split : point.left = arc :: left) :
    step w point = walk point arc left := by
  rw [step, split]

theorem step_of_queue (done : point.left = []) {place : ℕ} {queue : List ℕ}
    (split : point.queue = place :: queue) : step w point = emit w point place queue := by
  rw [step, done, split]

theorem step_of_finished (finished : point.Finished) : step w point = .ok point := by
  rw [step, finished.1, finished.2]

end Step

/-- A listed vertex is told from all others by its place. -/
theorem mem_map_idxOf {vertices list : List V} {v : V} (listed : v ∈ vertices) :
    vertices.idxOf v ∈ list.map vertices.idxOf ↔ v ∈ list := by
  refine ⟨fun member => ?_, List.mem_map_of_mem⟩
  obtain ⟨u, inside, same⟩ := List.mem_map.mp member
  exact (List.idxOf_inj listed).mp same.symm ▸ inside

variable {w : Wiring V} (wellFormed : w.WellFormed)

include wellFormed

theorem length_predecessors_numbered (v : V) :
    (w.numbered.predecessors (w.vertices.idxOf v)).length = w.incoming v := by
  have same := congrArg List.length (wellFormed.neighbors_numbered .incoming v)
  rw [List.length_map] at same
  exact same.trans (length_predecessors w v)

theorem counts_eq : counts w = w.vertices.map w.incoming := by
  rw [counts, ← map_idxOf_self wellFormed.distinct, List.map_map]
  exact List.map_congr_left fun v _ => length_predecessors_numbered wellFormed v

theorem start_eq : start w = .ok {
    counters := w.vertices.map w.incoming
    queue := (w.vertices.filter fun v => w.incoming v = 0).map w.vertices.idxOf
    order := []
    left := []
    walked := []
    entered := (w.vertices.filter fun v => w.incoming v = 0).map w.vertices.idxOf } := by
  have queue : (List.range w.vertices.length).filterM (fun place => do
        let count ← read (counts w) place
        return decide (count = 0)) =
      .ok ((w.vertices.filter fun v => w.incoming v = 0).map w.vertices.idxOf) := by
    rw [filterM_eq_ok (q := fun place => (w.numbered.predecessors place).length = 0)]
    · rw [← map_idxOf_self wellFormed.distinct, List.filter_map]
      simp only [Function.comp_def, length_predecessors_numbered wellFormed]
    · intro place inside
      have count : (counts w)[place]? = some (w.numbered.predecessors place).length := by
        rw [counts, List.getElem?_map, List.getElem?_range (List.mem_range.mp inside)]
        rfl
      rw [read_eq_ok count]
      rfl
  rw [start, queue, counts_eq wellFormed]
  rfl

theorem start_simulates : ∃ point, start w = .ok point ∧
    point.Simulates w [] (.start w) ∧ point.steps = 0 := by
  refine ⟨_, start_eq wellFormed, ?_, rfl⟩
  refine ⟨⟨rfl, rfl, rfl⟩, Scheduling.start_invariant wellFormed, by simp, rfl, rfl, rfl, ?_⟩
  simp [Scheduling.start]

/-- Scheduling by vertices loses one vertex to wait for where an arc is walked, so the counter of
its end is there and above zero. -/
theorem walk_simulates {point : Countdown V} {next : V} {targets : List V} {s : Scheduling V}
    (simulates : point.Simulates w (next :: targets) s) {arc : ℕ × ℕ} {left : List (ℕ × ℕ)}
    (split : point.left = arc :: left) : ∃ point', walk point arc left = .ok point' ∧
      point'.Simulates w targets (s.release next) ∧
      point'.steps = point.steps + 1 := by
  have listed : next ∈ w.vertices := simulates.listed next (List.mem_cons_self ..)
  have places := simulates.left
  rw [split, List.map_cons, List.map_cons, List.cons.injEq] at places
  obtain ⟨place, others⟩ := places
  have count : point.counters[arc.2]? = some (s.waiting next) := by
    rw [simulates.counters, List.getElem?_map, place, List.getElem?_idxOf listed]
    rfl
  have positive := Scheduling.waiting_pos simulates.invariant
  have ready : ((s.release next).queue.map w.vertices.idxOf) =
      point.queue ++ if s.waiting next - 1 = 0 then [arc.2] else [] := by
    rw [simulates.queue, place]
    by_cases last : s.waiting next - 1 = 0 <;> simp [Scheduling.release, last]
  have walked : walk point arc left = .ok { point with
      counters := point.counters.set arc.2 (s.waiting next - 1)
      queue := point.queue ++ if s.waiting next - 1 = 0 then [arc.2] else []
      left
      walked := point.walked ++ [arc]
      entered := point.entered ++ if s.waiting next - 1 = 0 then [arc.2] else [] } := by
    rw [walk, read_eq_ok count, ok_bind, decrease_of_pos positive]
    rfl
  refine ⟨_, walked, ⟨⟨?_, ready.symm, simulates.order⟩, ?_, fun v member => ?_, simulates.round,
    others, ?_, ?_⟩, ?_⟩
  · rw [simulates.counters, place]
    exact set_idxOf_map wellFormed.distinct s.waiting listed (s.waiting next - 1)
  · exact Scheduling.release_invariant simulates.invariant listed
  · exact simulates.listed v (List.mem_cons_of_mem _ member)
  · rw [simulates.entered, List.append_assoc]
    rfl
  · have before := simulates.walked
    rw [split] at before
    simpa using before
  · simp only [steps, List.length_append, List.length_singleton]
    omega

/-- A vertex is emitted once no arc is left to be walked. Its arcs are then all left. -/
theorem emit_simulates {point : Countdown V} {s : Scheduling V}
    (simulates : point.Simulates w [] s) {v : V} {others : List V}
    (split : s.queue = v :: others) :
    ∃ point', emit w point (w.vertices.idxOf v) (others.map w.vertices.idxOf) = .ok point' ∧
      point'.Simulates w (w.successors v) { s with queue := others, order := s.order ++ [v] } ∧
      point'.steps = point.steps + 1 := by
  have listed : v ∈ w.vertices := ((simulates.invariant.ready v).mp (by simp [split])).1
  have fresh : v ∉ s.order := by
    have distinct := simulates.invariant.distinct
    rw [split] at distinct
    intro member
    simpa using (List.nodup_append.mp distinct).2.2 v member
  have round : (w.successors v).foldl .release { s with queue := others, order := s.order ++ [v] } =
      Scheduling.run w (s.order ++ [v]).length (.start w) := by
    rw [List.length_append, List.length_singleton, Scheduling.run_succ, ← simulates.round,
      List.foldl_nil, Scheduling.step?, split, Option.getD_some]
  have emitted : emit w point (w.vertices.idxOf v) (others.map w.vertices.idxOf) = .ok { point with
      queue := others.map w.vertices.idxOf
      order := point.order ++ [v]
      left := w.numbered.arcs.filter fun arc => arc.1 = w.vertices.idxOf v } := by
    rw [emit, read_eq_ok (List.getElem?_idxOf listed), ok_bind, map_successors]
    rfl
  have apart : w.vertices.idxOf v ∉ s.order.map w.vertices.idxOf :=
    (mem_map_idxOf listed).not.mpr fresh
  have left : point.left = [] := by simpa using simulates.left
  refine ⟨_, emitted, ⟨⟨simulates.counters, rfl, ?_⟩, ?_, fun u member => ?_, round, ?_, ?_, ?_⟩,
    ?_⟩
  · rw [simulates.order]
  · exact Scheduling.emit_invariant simulates.invariant split
  · exact wellFormed.target _ _ (mem_successors.mp member)
  · rw [← map_successors, List.map_map]
    exact (List.map_id _).trans (wellFormed.neighbors_numbered .outgoing v)
  · rw [simulates.entered, simulates.queue, split]
    simp
  · have before := simulates.walked
    rw [left, List.append_nil] at before
    rw [List.map_append, List.map_singleton]
    exact (before.append_right _).trans (filter_concat_perm apart)
  · simp only [steps, List.length_append, List.length_singleton]
    omega

/-- No step fails, and each walks an arc or emits a vertex until all is done. -/
theorem step_simulates {point : Countdown V} {targets : List V} {s : Scheduling V}
    (simulates : point.Simulates w targets s) : ∃ point' targets' s',
      step w point = .ok point' ∧ point'.Simulates w targets' s' ∧
      (point'.Finished ∨ point'.steps = point.steps + 1) := by
  cases targets with
  | cons next targets =>
    obtain ⟨arc, left, split, _⟩ := List.map_eq_cons_iff.mp simulates.left
    obtain ⟨point', walked, simulates', longer⟩ := walk_simulates wellFormed simulates split
    exact ⟨point', targets, _, (step_of_left split).trans walked, simulates', .inr longer⟩
  | nil =>
    have left : point.left = [] := by simpa using simulates.left
    cases queue : s.queue with
    | cons v others =>
      obtain ⟨point', emitted, simulates', longer⟩ := emit_simulates wellFormed simulates queue
      have first : point.queue = w.vertices.idxOf v :: others.map w.vertices.idxOf := by
        rw [simulates.queue, queue, List.map_cons]
      exact ⟨point', _, _, (step_of_queue left first).trans emitted, simulates', .inr longer⟩
    | nil =>
      have finished : point.Finished := ⟨by rw [simulates.queue, queue, List.map_nil], left⟩
      exact ⟨point, [], s, step_of_finished finished, simulates, .inl finished⟩

theorem after_simulates (n : ℕ) : ∃ point targets s, after w n = .ok point ∧
    point.Simulates w targets s ∧ (point.Finished ∨ point.steps = n) := by
  induction n with
  | zero =>
    obtain ⟨point, started, simulates, zero⟩ := start_simulates wellFormed
    exact ⟨point, [], _, started, simulates, .inr zero⟩
  | succ n ih =>
    obtain ⟨point, targets, s, reached, simulates, progress⟩ := ih
    rcases progress with finished | progress
    · refine ⟨point, targets, s, ?_, simulates, .inl finished⟩
      rw [after, reached, ok_bind, step_of_finished finished]
    · obtain ⟨point', targets', s', stepped, simulates', progress'⟩ :=
        step_simulates wellFormed simulates
      refine ⟨point', targets', s', ?_, simulates', progress ▸ progress'⟩
      rw [after, reached, ok_bind, stepped]

namespace Simulates

variable {point : Countdown V} {targets : List V} {s : Scheduling V}
  (simulates : point.Simulates w targets s)

include simulates

/-- A vertex waits for the arcs that are left and for those out of vertices not emitted yet. -/
theorem waiting_eq (v : V) : s.waiting v =
    (point.left ++ w.numbered.arcs.filter fun arc =>
      ¬ arc.1 ∈ s.order.map w.vertices.idxOf).countP fun arc => arc.2 = w.vertices.idxOf v := by
  have left : point.left.countP (fun arc => arc.2 = w.vertices.idxOf v) = targets.count v := by
    have places := congrArg (List.countP (· = w.vertices.idxOf v)) simulates.left
    rw [List.countP_map, List.countP_map] at places
    rw [List.count_eq_countP]
    refine places.trans (List.countP_congr fun u member => ?_)
    rw [Function.comp_apply, decide_eq_true_iff, beq_iff_eq]
    exact List.idxOf_inj (simulates.listed u member)
  have others : (w.numbered.arcs.filter fun arc =>
        ¬ arc.1 ∈ s.order.map w.vertices.idxOf).countP (fun arc => arc.2 = w.vertices.idxOf v) =
      Scheduling.unwalked w s.order v := by
    rw [List.countP_filter, numbered, map, List.countP_map, Scheduling.unwalked]
    refine List.countP_congr fun arc member => ?_
    have source := wellFormed.source _ _ member
    have target := wellFormed.target _ _ member
    simp only [Function.comp_apply, Bool.and_eq_true, decide_eq_true_iff, mem_map_idxOf source,
      List.idxOf_inj target]
  rw [simulates.invariant.waiting v, List.countP_append, left, others, Nat.add_comm]

omit wellFormed in
theorem entered_eq : point.entered = (s.order ++ s.queue).map w.vertices.idxOf := by
  rw [simulates.entered, simulates.queue, List.map_append]

theorem balanced : point.Balanced w.vertices.length w.numbered.arcs
    (point.left ++ w.numbered.arcs.filter fun arc =>
      ¬ arc.1 ∈ s.order.map w.vertices.idxOf) where
  split := by
    rw [← List.append_assoc]
    refine (simulates.walked.append_right _).trans ?_
    simp only [decide_not]
    exact List.filter_append_perm _ _
  counters := by
    rw [simulates.counters, ← map_idxOf_self wellFormed.distinct, List.map_map]
    exact List.map_congr_left fun v _ => simulates.waiting_eq wellFormed v
  inside := by
    intro place member
    rw [simulates.entered_eq] at member
    obtain ⟨v, ready, rfl⟩ := List.mem_map.mp member
    exact List.idxOf_lt_length_of_mem ((simulates.invariant.ready v).mp ready).1
  once := by
    rw [simulates.entered_eq]
    refine List.Nodup.map_on (fun v ready u _ same => ?_) simulates.invariant.distinct
    exact (List.idxOf_inj ((simulates.invariant.ready v).mp ready).1).mp same
  queue := by
    rw [simulates.entered, simulates.order]
    exact (List.drop_left' (List.length_map _)).symm
  emitted := by
    rw [simulates.order]
    exact (Nat.le_add_right ..).trans (Scheduling.length_le simulates.invariant)

omit wellFormed in
/-- Where no arc is left, as many rounds of scheduling by vertices have been done as vertices have
been emitted. -/
theorem matches_run (done : point.left = []) :
    point.Matches w (Scheduling.run w point.order.length (.start w)) := by
  have targets : targets = [] := by
    have places := simulates.left
    rw [done] at places
    simpa using places.symm
  have round := simulates.round
  rw [targets, List.foldl_nil, ← simulates.order] at round
  exact round ▸ simulates.toMatches

/-- What has been emitted in the end is what scheduling by vertices emits. -/
theorem order_of_finished (finished : point.Finished) :
    point.order = (Scheduling.final w).order := by
  have last := simulates.matches_run finished.2
  have stopped : (Scheduling.run w point.order.length (.start w)).queue = [] := by
    have places := last.queue
    rw [finished.1] at places
    simpa using places.symm
  rw [last.order, Scheduling.run_unique stopped (Scheduling.final_invariant wellFormed).2]
  rfl

end Simulates

/-- At every point the counters count the arcs that have not been walked, and between two rounds
they are what the vertices wait for. -/
theorem exists_balanced (n : ℕ) : ∃ point unwalked, after w n = .ok point ∧
    point.Balanced w.vertices.length w.numbered.arcs unwalked ∧
    (point.left = [] → point.Matches w (Scheduling.run w point.order.length (.start w))) := by
  obtain ⟨point, _, _, reached, simulates, _⟩ := after_simulates wellFormed n
  exact ⟨point, _, reached, simulates.balanced wellFormed, simulates.matches_run⟩

/-- After a step for every vertex and every arc all is done. -/
theorem exists_finished : ∃ point, after w (w.vertices.length + w.arcs.length) = .ok point ∧
    point.Finished ∧ point.order = (Scheduling.final w).order := by
  obtain ⟨point, targets, s, reached, simulates, progress⟩ :=
    after_simulates wellFormed (w.vertices.length + w.arcs.length)
  have finished : point.Finished := by
    rcases progress with finished | progress
    · exact finished
    · have walked := (simulates.balanced wellFormed).split.length_eq
      have emitted := Scheduling.length_le simulates.invariant
      have queue := congrArg List.length simulates.queue
      rw [numbered, map, List.length_map, List.length_append, List.length_append] at walked
      rw [List.length_map] at queue
      rw [steps, simulates.order] at progress
      exact ⟨List.eq_nil_of_length_eq_zero (by omega), List.eq_nil_of_length_eq_zero (by omega)⟩
  exact ⟨point, reached, finished, simulates.order_of_finished wellFormed finished⟩

end Countdown

end Wiring

end LayerGraph
