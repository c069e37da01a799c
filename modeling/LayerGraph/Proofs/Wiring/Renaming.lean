import LayerGraph.Proofs.Wiring.Scheduling
import Mathlib.Data.Option.Defs

/-!
# Renamed vertices

Scheduling compares vertices with each other and with nothing else. So a wiring with renamed
vertices, different ones under different names, is scheduled as before but for the names.
-/

namespace LayerGraph

namespace Wiring

variable {V W : Type}

def map (f : V → W) (w : Wiring V) : Wiring W :=
  ⟨w.vertices.map f, w.arcs.map fun arc => (f arc.1, f arc.2)⟩

variable [DecidableEq V] [DecidableEq W] {f : V → W} (injective : Function.Injective f)

include injective

theorem successors_map (w : Wiring V) (v : V) :
    (w.map f).successors (f v) = (w.successors v).map f := by
  simp [successors, map, List.filter_map, Function.comp_def, injective.eq_iff]

theorem predecessors_map (w : Wiring V) (v : V) :
    (w.map f).predecessors (f v) = (w.predecessors v).map f := by
  simp [predecessors, map, List.filter_map, Function.comp_def, injective.eq_iff]

theorem incoming_map (w : Wiring V) (v : V) : (w.map f).incoming (f v) = w.incoming v := by
  rw [← length_predecessors, predecessors_map injective, List.length_map, length_predecessors]

namespace Scheduling

structure Renames (f : V → W) (s : Scheduling V) (t : Scheduling W) : Prop where
  waiting : ∀ v, t.waiting (f v) = s.waiting v
  queue : t.queue = s.queue.map f
  order : t.order = s.order.map f

theorem start_renames (w : Wiring V) : Renames f (start w) (start (w.map f)) := by
  refine ⟨incoming_map injective w, ?_, rfl⟩
  change (w.vertices.map f).filter (fun v => (w.map f).incoming v = 0) = _
  rw [List.filter_map]
  simp only [Function.comp_def, incoming_map injective w]
  rfl

namespace Renames

variable {w : Wiring V} {s : Scheduling V} {t : Scheduling W}

theorem release (renames : Renames f s t) (v : V) : Renames f (s.release v) (t.release (f v)) := by
  refine ⟨fun u => ?_, ?_, renames.order⟩
  · by_cases same : u = v
    · subst same
      rw [waiting_release_self, waiting_release_self, renames.waiting]
    · rw [waiting_release_of_ne s same, waiting_release_of_ne t (injective.ne same),
        renames.waiting]
  · unfold Scheduling.release
    dsimp only
    rw [renames.waiting, renames.queue]
    split
    · rw [List.map_append, List.map_singleton]
    · rfl

theorem releases (renames : Renames f s t) (left : List V) :
    Renames f (left.foldl Scheduling.release s) ((left.map f).foldl Scheduling.release t) := by
  induction left generalizing s t with
  | nil => exact renames
  | cons v left ih => exact ih (renames.release injective v)

/-- Steps of both states are taken or not taken together. -/
theorem step? (renames : Renames f s t) :
    Option.Rel (Renames f) (s.step? w) (t.step? (w.map f)) := by
  unfold Scheduling.step?
  rw [renames.queue]
  cases s.queue with
  | nil => exact .none
  | cons v queue =>
    have emitted : Renames f { s with queue, order := s.order ++ [v] }
        { t with queue := queue.map f, order := t.order ++ [f v] } := by
      refine ⟨renames.waiting, rfl, ?_⟩
      rw [renames.order, List.map_append, List.map_singleton]
    rw [List.map_cons]
    dsimp only
    rw [successors_map injective]
    exact .some (emitted.releases injective _)

theorem run (renames : Renames f s t) (fuel : Nat) :
    Renames f (Scheduling.run w fuel s) (Scheduling.run (w.map f) fuel t) := by
  induction fuel generalizing s t with
  | zero => exact renames
  | succ fuel ih =>
    have steps := renames.step? injective (w := w)
    rw [Scheduling.run, Scheduling.run]
    generalize s.step? w = next, t.step? (w.map f) = next' at steps
    cases steps with
    | none => exact renames
    | some renames => exact ih renames

end Renames

end Scheduling

theorem schedule?_map (w : Wiring V) : (w.map f).schedule? = w.schedule?.map (List.map f) := by
  have last := (Scheduling.start_renames injective w).run injective (w := w) w.vertices.length
  have length : (w.map f).vertices.length = w.vertices.length := List.length_map f
  rw [schedule?, schedule?, length, last.order, List.length_map]
  split <;> rfl

end Wiring

end LayerGraph
