import LayerGraph.Graph.LayerName
import Mathlib.Data.List.Basic

/-!
# Numbers of layers

The layers of one kind are numbered one by one, in the order of their nodes. So the names that a
kind gives depend only on how many nodes own a layer of this kind, and a further layer raises the
numbers of its kind behind it by one.
-/

namespace LayerGraph

def LayerName.raised (name : LayerName) : LayerName :=
  { name with number := name.number + 1 }

namespace Graph

def layers (graph : Graph) (kind : Kind) (order : List String) : Nat :=
  order.countP fun id => graph.kind? id = some kind ∧ kind.isFunctional = false

theorem numbers_layerNamesAfter (graph : Graph) (kind : Kind) (named : List Kind)
    (order : List String) :
    ((graph.layerNamesAfter named order).filter fun name => name.kind = kind).map (·.number) =
      List.range' (named.count kind + 1) (graph.layers kind order) := by
  induction order generalizing named with
  | nil => rfl
  | cons id rest ih =>
    unfold layers at ih ⊢
    rw [layerNamesAfter, List.countP_cons]
    cases known : graph.kind? id with
    | none => simpa using ih named
    | some other =>
      cases functional : other.isFunctional with
      | true =>
        have skipped : ¬ (other = kind ∧ kind.isFunctional = false) := by
          rintro ⟨rfl, named⟩
          simp [functional] at named
        simpa [functional, skipped] using ih named
      | false =>
        by_cases same : other = kind
        · subst same
          simp [functional, ih (other :: named), List.range'_succ]
        · simpa [functional, same] using ih (other :: named)

/-- The names of the layers of a kind, in order. -/
theorem texts_layerNames (graph : Graph) (kind : Kind) (order : List String) :
    ((graph.layerNames order).filter fun name => name.kind = kind).map LayerName.text =
      (List.range' 1 (graph.layers kind order)).map fun number => kind.name ++ toString number := by
  have numbers := graph.numbers_layerNamesAfter kind [] order
  rw [List.count_nil, Nat.zero_add] at numbers
  rw [← numbers, List.map_map]
  refine List.map_congr_left fun name member => ?_
  have same : name.kind = kind := by simpa using (List.mem_filter.mp member).2
  simp [LayerName.text, same]

variable {graph other : Graph}

/-- Only nodes of the list are named, by their kind, and only if it is not functional. -/
theorem mem_layerNamesAfter {named : List Kind} {order : List String} {name : LayerName}
    (member : name ∈ graph.layerNamesAfter named order) :
    name.nodeId ∈ order ∧ name.kind.isFunctional = false := by
  induction order generalizing named with
  | nil => contradiction
  | cons id rest ih =>
    have later {named : List Kind} (member : name ∈ graph.layerNamesAfter named rest) :
        name.nodeId ∈ id :: rest ∧ name.kind.isFunctional = false :=
      (ih member).imp_left (List.mem_cons_of_mem id)
    rw [layerNamesAfter] at member
    split at member
    · exact later member
    · split at member
      · exact later member
      · rename_i owned
        rcases List.mem_cons.mp member with rfl | member
        · exact ⟨List.mem_cons_self .., by simpa using owned⟩
        · exact later member

theorem layerNamesAfter_congr {order : List String}
    (same : ∀ id ∈ order, graph.kind? id = other.kind? id) (named : List Kind) :
    graph.layerNamesAfter named order = other.layerNamesAfter named order := by
  induction order generalizing named with
  | nil => rfl
  | cons id rest ih =>
    rw [layerNamesAfter, layerNamesAfter, ← same id (List.mem_cons_self ..)]
    simp only [ih fun id member => same id (List.mem_cons_of_mem _ member)]

/-- After one more layer of a kind, the numbers of this kind are one higher. -/
theorem layerNamesAfter_cons {named named' : List Kind} {kind : Kind}
    (more : named'.Perm (kind :: named)) (order : List String) :
    graph.layerNamesAfter named' order = (graph.layerNamesAfter named order).map fun name =>
      if name.kind = kind then name.raised else name := by
  induction order generalizing named named' with
  | nil => rfl
  | cons id rest ih =>
    rw [layerNamesAfter, layerNamesAfter]
    cases graph.kind? id with
    | none => exact ih more
    | some own =>
      dsimp only
      split
      · exact ih more
      · rw [List.map_cons, ih ((more.cons own).trans (.swap ..)), more.count_eq]
        by_cases same : own = kind
        · simp [same, LayerName.raised]
        · simp [same, Ne.symm same]

/-- The case of `filter_layerNamesAfter` in which the id comes first. -/
theorem filter_layerNamesAfter_head {id : String} {after : List String}
    (same : ∀ x, x ≠ id → graph.kind? x = other.kind? x) (fresh : id ∉ after)
    (named : List Kind) :
    (graph.layerNamesAfter named (id :: after)).filter (fun name => name.nodeId ≠ id) =
      (other.layerNamesAfter named after).map fun name =>
        if graph.kind? id = some name.kind ∧ name.nodeId ∈ after then name.raised else name := by
  have apart {x : String} (member : x ∈ after) : x ≠ id := fun this => fresh (this ▸ member)
  have rest (named : List Kind) :
      (graph.layerNamesAfter named after).filter (fun name => name.nodeId ≠ id) =
        other.layerNamesAfter named after := by
    rw [layerNamesAfter_congr (fun x member => same x (apart member)) named]
    refine List.filter_eq_self.mpr fun name member => ?_
    exact decide_eq_true (apart (mem_layerNamesAfter member).1)
  have silent (f : LayerName → LayerName)
      (still : ∀ name ∈ other.layerNamesAfter named after, f name = name) :
      (other.layerNamesAfter named after).map f = other.layerNamesAfter named after :=
    (List.map_congr_left still).trans (List.map_id _)
  rw [layerNamesAfter]
  cases known : graph.kind? id with
  | none => exact (rest named).trans (silent _ fun name _ => by simp).symm
  | some kind =>
    dsimp only
    split
    · rename_i functional
      refine (rest named).trans (silent _ fun name member => if_neg ?_).symm
      rintro ⟨own, _⟩
      obtain rfl := Option.some.inj own
      rw [(mem_layerNamesAfter member).2] at functional
      contradiction
    · rw [List.filter_cons_of_neg (by simp), rest, layerNamesAfter_cons (.refl _)]
      refine List.map_congr_left fun name member => ?_
      simp [(mem_layerNamesAfter member).1, eq_comm]

/-- Where an id is left out, the names of all others stay, except that those of its kind behind it
were one number higher. -/
theorem filter_layerNamesAfter {id : String} {before after : List String}
    (same : ∀ x, x ≠ id → graph.kind? x = other.kind? x)
    (distinct : (before ++ id :: after).Nodup) (named : List Kind) :
    (graph.layerNamesAfter named (before ++ id :: after)).filter (fun name => name.nodeId ≠ id) =
      (other.layerNamesAfter named (before ++ after)).map fun name =>
        if graph.kind? id = some name.kind ∧ name.nodeId ∈ after then name.raised else name := by
  induction before generalizing named with
  | nil => exact filter_layerNamesAfter_head same (List.nodup_cons.mp distinct).1 named
  | cons x before ih =>
    obtain ⟨fresh, distinct⟩ := List.nodup_cons.mp distinct
    obtain ⟨_, apart, front⟩ : x ∉ before ∧ x ≠ id ∧ x ∉ after := by simpa using fresh
    rw [List.cons_append, List.cons_append, layerNamesAfter, layerNamesAfter, same x apart]
    cases other.kind? x with
    | none => exact ih distinct named
    | some kind =>
      dsimp only
      split
      · exact ih distinct named
      · rw [List.filter_cons_of_pos (by simpa using apart), List.map_cons, ih distinct]
        simp [front]

end Graph

end LayerGraph
