import LayerGraph.Proofs.Wiring.Scheduling
import Mathlib.Data.List.Dedup
import Mathlib.Data.Prod.Lex

/-!
# The order of release

Vertices are emitted in the order in which they joined the queue. Those that no arc enters come
first, as they are declared. Any other vertex joins when the last of the arcs into it is walked, so
these vertices follow in the order of their last arcs, and that determines a schedule.
-/

namespace LayerGraph

section Lists

variable {α β : Type} [DecidableEq β]

/-- With an element put at the end, that is its last place, and all others keep theirs. -/
theorem dedup_append_singleton (list : List β) (x : β) :
    (list ++ [x]).dedup = list.dedup.filter (fun y => y ≠ x) ++ [x] := by
  induction list with
  | nil => simp
  | cons y list ih =>
    by_cases same : y = x
    · subst same
      rw [List.cons_append, List.dedup_cons_of_mem (by simp), ih, List.dedup_cons]
      split
      · rfl
      · rw [List.filter_cons_of_neg (by simp)]
    · by_cases later : y ∈ list
      · rw [List.cons_append, List.dedup_cons_of_mem (by simp [later]), ih,
          List.dedup_cons_of_mem later]
      · rw [List.cons_append, List.dedup_cons_of_notMem (by simp [later, same]), ih,
          List.dedup_cons_of_notMem later, List.filter_cons_of_pos (by simpa using same),
          List.cons_append]

/-- The values of a sorted list, each at its last place: of two of them, the second has an element
that comes after all elements of the first. -/
theorem pairwise_dedup_map {R : α → α → Prop} {list : List α} (sorted : list.Pairwise R)
    (f : α → β) : (list.map f).dedup.Pairwise fun u v =>
      ∃ b ∈ list, f b = v ∧ ∀ a ∈ list, f a = u → R a b := by
  induction sorted with
  | nil => simp
  | @cons x list first _ ih =>
    have later : (list.map f).dedup.Pairwise fun u v =>
        ∃ b ∈ x :: list, f b = v ∧ ∀ a ∈ x :: list, f a = u → R a b := by
      apply ih.imp
      rintro u v ⟨b, inside, rfl, last⟩
      refine ⟨b, List.mem_cons_of_mem x inside, rfl, fun a listed same => ?_⟩
      rcases List.mem_cons.mp listed with rfl | listed
      · exact first b inside
      · exact last a listed same
    rw [List.map_cons]
    by_cases again : f x ∈ list.map f
    · rwa [List.dedup_cons_of_mem again]
    · rw [List.dedup_cons_of_notMem again]
      refine List.pairwise_cons.mpr ⟨fun v member => ?_, later⟩
      obtain ⟨b, inside, rfl⟩ := List.mem_map.mp (List.mem_dedup.mp member)
      refine ⟨b, List.mem_cons_of_mem x inside, rfl, fun a listed same => ?_⟩
      rcases List.mem_cons.mp listed with rfl | listed
      · exact first b inside
      · exact absurd (same ▸ List.mem_map_of_mem listed) again

/-- In a sorted list, what stands before is related to what stands behind. -/
theorem rel_of_idxOf_lt {R : β → β → Prop} {list : List β} (sorted : list.Pairwise R) {x y : β}
    (member : y ∈ list) (before : list.idxOf x < list.idxOf y) : R x y := by
  have bound := List.idxOf_lt_length_of_mem member
  simpa using List.pairwise_iff_getElem.mp sorted _ _ (before.trans bound) bound before

/-- In a list that is sorted by an asymmetric relation, places compare as the relation does. -/
theorem idxOf_lt_idxOf_iff_of_pairwise {R : β → β → Prop} {list : List β}
    (sorted : list.Pairwise R) (asymmetric : ∀ x y, R x y → ¬ R y x) {x y : β}
    (member : x ∈ list) (member' : y ∈ list) : list.idxOf x < list.idxOf y ↔ R x y := by
  refine ⟨rel_of_idxOf_lt sorted member', fun related => ?_⟩
  by_contra notBefore
  rcases Nat.lt_or_eq_of_le (Nat.not_lt.mp notBefore) with after | same
  · exact asymmetric x y related (rel_of_idxOf_lt sorted member after)
  · obtain rfl := (List.idxOf_inj member').mp same
    exact asymmetric y y related related

/-- In a list without repeats, every element stands before those that follow it. -/
theorem pairwise_idxOf {list : List β} (distinct : list.Nodup) :
    list.Pairwise fun x y => list.idxOf x < list.idxOf y := by
  apply List.pairwise_iff_getElem.mpr
  intro i j inside inside' less
  rwa [distinct.idxOf_getElem, distinct.idxOf_getElem]

/-- Where two lists part, the element that one of them goes on with stands in it before the other
one. -/
theorem idxOf_lt_idxOf_of_split {list other before after after' : List β} {x y : β}
    (distinct : list.Nodup) (split : list = before ++ x :: after) (distinct' : other.Nodup)
    (split' : other = before ++ y :: after') (apart : x ≠ y) : list.idxOf x < list.idxOf y := by
  subst split split'
  have fresh : y ∉ before := (Wiring.idxOf_middle distinct').1
  rw [(Wiring.idxOf_middle distinct).2, List.idxOf_append_of_notMem fresh,
    List.idxOf_cons_ne _ apart]
  omega

/-- Two lists of one length that never part are equal. -/
theorem eq_of_next {list other : List α} (length : list.length = other.length)
    (next : ∀ seen x rest y rest', list = seen ++ x :: rest → other = seen ++ y :: rest' → x = y) :
    list = other := by
  have ends (seen rest rest' : List α) (split : list = seen ++ rest)
      (split' : other = seen ++ rest') : rest = rest' := by
    have same : rest.length = rest'.length := by
      rw [split, split', List.length_append, List.length_append] at length
      omega
    induction rest generalizing seen rest' with
    | nil => exact (List.eq_nil_of_length_eq_zero same.symm).symm
    | cons x rest ih =>
      obtain ⟨y, rest', rfl⟩ := List.exists_cons_of_length_eq_add_one same.symm
      obtain rfl := next seen x rest y rest' split split'
      rw [ih (seen ++ [x]) rest' (by simpa using split) (by simpa using split')
        (by simpa using same)]
  exact ends [] list other rfl rfl

end Lists

namespace Wiring

variable {V : Type} [DecidableEq V]

def roots (w : Wiring V) : List V :=
  w.vertices.filter fun v => w.incoming v = 0

namespace Scheduling

/-- Who has joined the queue, and in which order: the roots, and then the targets of the arcs that
were walked, each at its last place, as far as they wait for nothing more. -/
def Joined (w : Wiring V) (walked : List V) (s : Scheduling V) : Prop :=
  s.order ++ s.queue = w.roots ++ walked.dedup.filter fun v => s.waiting v = 0

variable {w : Wiring V} {walked : List V} {s next : Scheduling V}

theorem start_joined (w : Wiring V) : Joined w [] (start w) := by
  simp [Joined, start, roots]

/-- Walking an arc into a vertex that waits for it moves the last place of the vertex. It has not
joined before, and it joins now if this was its last arc. -/
theorem release_joined (joined : Joined w walked s) {v : V} (waits : 0 < s.waiting v) :
    Joined w (walked ++ [v]) (s.release v) := by
  have others : (walked.dedup.filter fun u => u ≠ v).filter
      (fun u => (s.release v).waiting u = 0) = walked.dedup.filter fun u => s.waiting u = 0 := by
    rw [List.filter_filter]
    apply List.filter_congr
    intro u _
    by_cases same : u = v
    · subst same
      simp [Nat.ne_of_gt waits]
    · simp [same, waiting_release_of_ne s same]
  unfold Joined
  rw [dedup_append_singleton, List.filter_append, others, ← List.append_assoc, ← joined]
  by_cases last : s.waiting v - 1 = 0
  · simp [release, last]
  · simp [release, last]

theorem releases_joined {left : List V} (invariant : Invariant w left s)
    (listed : ∀ v ∈ left, v ∈ w.vertices) (joined : Joined w walked s) :
    Joined w (walked ++ left) (left.foldl release s) := by
  induction left generalizing walked s with
  | nil => simpa using joined
  | cons v left ih =>
    have invariant' := release_invariant invariant (listed v (by simp))
    have joined' := release_joined joined (waiting_pos invariant)
    rw [List.foldl_cons, ← List.singleton_append, ← List.append_assoc]
    exact ih invariant' (fun u member => listed u (by simp [member])) joined'

/-- Between steps, the arcs that were walked are those out of the vertices emitted. -/
theorem step_joined (wellFormed : w.WellFormed) (invariant : Invariant w [] s)
    (joined : Joined w (s.order.flatMap w.successors) s) (step : s.step? w = some next) :
    Joined w (next.order.flatMap w.successors) next := by
  unfold step? at step
  split at step
  · contradiction
  · rename_i v queue split
    obtain rfl := Option.some.inj step
    rw [order_releases, List.flatMap_append, List.flatMap_singleton]
    apply releases_joined (emit_invariant invariant split)
    · exact fun x member => wellFormed.target _ _ (mem_successors.mp member)
    · simpa [Joined, split] using joined

theorem run_joined (wellFormed : w.WellFormed) (fuel : Nat) (invariant : Invariant w [] s)
    (joined : Joined w (s.order.flatMap w.successors) s) :
    Joined w ((run w fuel s).order.flatMap w.successors) (run w fuel s) := by
  induction fuel generalizing s with
  | zero => exact joined
  | succ fuel ih =>
    cases step : s.step? w with
    | none => simpa only [run, step] using joined
    | some next =>
      simpa only [run, step] using
        ih (step_preserves wellFormed invariant step) (step_joined wellFormed invariant joined step)

end Scheduling

/-- A schedule lists the roots and then the targets of all arcs, each where it is the target of an
arc for the last time, if the arcs are walked from the vertices in the order of the schedule. -/
theorem schedule?_eq_roots_append {w : Wiring V} (wellFormed : w.WellFormed) {order : List V}
    (scheduled : w.schedule? = some order) :
    order = w.roots ++ (order.flatMap w.successors).dedup := by
  obtain ⟨_, last⟩ := schedule?_eq_some_iff.mp scheduled
  have topological := topologicalOrder_of_schedule? wellFormed scheduled
  obtain ⟨invariant, stopped⟩ := Scheduling.final_invariant wellFormed
  have joined : Scheduling.Joined w ((Scheduling.final w).order.flatMap w.successors)
      (Scheduling.final w) :=
    Scheduling.run_joined wellFormed _ (Scheduling.start_invariant wellFormed)
      (Scheduling.start_joined w)
  rw [Scheduling.Joined, stopped, List.append_nil, last, List.filter_eq_self.mpr] at joined
  · exact joined
  · intro v member
    obtain ⟨u, _, successor⟩ := List.mem_flatMap.mp (List.mem_dedup.mp member)
    have listed := wellFormed.target u v (mem_successors.mp successor)
    have emitted : v ∈ (Scheduling.final w).order := last ▸ (topological.complete v).mpr listed
    exact decide_eq_true ((invariant.ready v).mp (List.mem_append_left _ emitted)).2

theorem mem_roots_iff {w : Wiring V} {v : V} :
    v ∈ w.roots ↔ v ∈ w.vertices ∧ ∀ u, ¬ w.Leads u v := by
  rw [roots, List.mem_filter, decide_eq_true_iff, ← length_predecessors,
    List.length_eq_zero_iff, List.eq_nil_iff_forall_not_mem]
  simp only [mem_predecessors, Leads]

/-- What stands before a root in a schedule is a root and is declared before it. -/
theorem pairwise_roots {w : Wiring V} (wellFormed : w.WellFormed) {order : List V}
    (scheduled : w.schedule? = some order) {T : V → V → Prop} (declared : w.vertices.Pairwise T) :
    order.Pairwise fun u v => v ∈ w.roots → T u v := by
  have inner : ∀ v ∈ (order.flatMap w.successors).dedup, v ∉ w.roots := by
    intro v member root
    obtain ⟨u, _, successor⟩ := List.mem_flatMap.mp (List.mem_dedup.mp member)
    exact (mem_roots_iff.mp root).2 u (mem_successors.mp successor)
  have rooted : w.roots.Pairwise T := declared.filter _
  rw [schedule?_eq_roots_append wellFormed scheduled]
  refine List.pairwise_append.mpr ⟨?_, ?_, fun u _ v member root => absurd root (inner v member)⟩
  · apply rooted.imp
    intro u v related _
    exact related
  · apply List.Pairwise.imp_of_mem _ (List.pairwise_of_forall fun _ _ => trivial)
    exact fun _ member _ root => absurd root (inner _ member)

section Walks

variable {α : Type} (labels : List α) (source target : α → V)

/-- The arcs in the order in which they are walked, each given by some label: those out of one
vertex together, in declaration order. -/
def walks (order : List V) : List α :=
  order.flatMap fun v => labels.filter fun a => source a = v

variable {labels source target} {w : Wiring V} {order : List V}

theorem mem_walks {a : α} : a ∈ walks labels source order ↔ a ∈ labels ∧ source a ∈ order := by
  simp [walks, and_comm]

theorem flatMap_successors (arcs : w.arcs = labels.map fun a => (source a, target a)) :
    order.flatMap w.successors = (walks labels source order).map target := by
  rw [walks, List.map_flatMap]
  congr 1
  funext v
  simp [successors, arcs, List.filter_map, Function.comp_def]

/-- The walks are sorted by the place of the source in the order, then by declaration. -/
theorem pairwise_walks (distinct : order.Nodup) {rank : α → ℕ}
    (declared : labels.Pairwise fun a b => rank a < rank b) :
    (walks labels source order).Pairwise fun a b =>
      toLex (order.idxOf (source a), rank a) < toLex (order.idxOf (source b), rank b) := by
  refine List.pairwise_flatMap.mpr ⟨fun v _ => ?_, ?_⟩
  · apply List.Pairwise.imp_of_mem _ (declared.filter _)
    intro a b member member' less
    have same : source a = v := by simpa using (List.mem_filter.mp member).2
    have same' : source b = v := by simpa using (List.mem_filter.mp member').2
    exact Prod.Lex.toLex_lt_toLex.mpr (.inr ⟨by rw [same, same'], less⟩)
  · apply (pairwise_idxOf distinct).imp
    intro u v less a member b member'
    have same : source a = u := by simpa using (List.mem_filter.mp member).2
    have same' : source b = v := by simpa using (List.mem_filter.mp member').2
    exact Prod.Lex.toLex_lt_toLex.mpr (.inl (by rwa [same, same']))

/-- Of two vertices in a schedule, every arc into the first is walked before some arc into the
second. -/
theorem pairwise_targets (wellFormed : w.WellFormed) (scheduled : w.schedule? = some order)
    (arcs : w.arcs = labels.map fun a => (source a, target a)) {R : α → α → Prop}
    (sorted : (walks labels source order).Pairwise R) :
    order.Pairwise fun u v => ∀ a ∈ labels, target a = u →
      ∃ b ∈ labels, target b = v ∧ R a b := by
  have topological := topologicalOrder_of_schedule? wellFormed scheduled
  have leads (a : α) (member : a ∈ labels) : w.Leads (source a) (target a) := by
    rw [Leads, arcs]
    exact List.mem_map_of_mem member
  have walked (a : α) (member : a ∈ labels) : a ∈ walks labels source order :=
    mem_walks.mpr ⟨member, (topological.complete _).mpr (wellFormed.source _ _ (leads a member))⟩
  have later := pairwise_dedup_map sorted target
  rw [← flatMap_successors arcs] at later
  have roots (u : V) (root : u ∈ w.roots) : ∀ a ∈ labels, target a ≠ u := by
    intro a member same
    exact (mem_roots_iff.mp root).2 _ (same ▸ leads a member)
  rw [schedule?_eq_roots_append wellFormed scheduled]
  refine List.pairwise_append.mpr ⟨?_, ?_, ?_⟩
  · apply List.Pairwise.imp_of_mem _ (List.pairwise_of_forall fun _ _ => trivial)
    exact fun root _ _ a member same => absurd same (roots _ root a member)
  · apply later.imp
    rintro u v ⟨b, member, into, last⟩ a listed same
    exact ⟨b, (mem_walks.mp member).1, into, last a (walked a listed) same⟩
  · exact fun u root _ _ a member same => absurd same (roots u root a member)

end Walks

end Wiring

end LayerGraph
