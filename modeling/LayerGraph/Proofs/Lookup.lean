import LayerGraph.Table
import Mathlib.Data.List.Nodup

/-!
# Looking up by a key

In a list whose keys are distinct, a search by key finds the one element that has it.
-/

namespace LayerGraph

theorem find?_key_eq_some {α κ : Type} [DecidableEq κ] {key : α → κ} {list : List α}
    (distinct : (list.map key).Nodup) {x : α} (member : x ∈ list) :
    list.find? (fun y => key y = key x) = some x := by
  have exists_ : (list.find? fun y => key y = key x).isSome = true :=
    List.find?_isSome.mpr ⟨x, member, decide_eq_true rfl⟩
  obtain ⟨found, search⟩ := Option.isSome_iff_exists.mp exists_
  have same : key found = key x := by simpa using List.find?_some search
  rw [search, List.inj_on_of_nodup_map distinct (List.mem_of_find?_eq_some search) member same]

/-- A search by one key does not meet the elements with another key. -/
theorem find?_filter_key_ne {α κ : Type} [DecidableEq κ] {key : α → κ} {k other : κ}
    (apart : k ≠ other) (list : List α) :
    (list.filter fun x => key x ≠ other).find? (fun x => key x = k) =
      list.find? fun x => key x = k := by
  rw [List.find?_filter]
  congr 1
  funext x
  by_cases here : key x = k
  · simp [here, apart]
  · simp [here]

/-- The one element with a key is left out by its key. -/
theorem filter_key_ne {α κ : Type} [DecidableEq κ] {key : α → κ} {before after : List α} {x : α}
    (distinct : ((before ++ x :: after).map key).Nodup) :
    (before ++ x :: after).filter (fun y => key y ≠ key x) = before ++ after := by
  have moved : ((before ++ x :: after).map key).Perm ((x :: (before ++ after)).map key) :=
    List.perm_middle.map key
  have once := (List.nodup_cons.mp (moved.nodup_iff.mp distinct)).1
  have apart : ∀ y ∈ before ++ after, key y ≠ key x := by
    intro y member same
    exact once (List.mem_map.mpr ⟨y, member, same⟩)
  have others : (before ++ after).filter (fun y => key y ≠ key x) = before ++ after :=
    List.filter_eq_self.mpr fun y member => decide_eq_true (apart y member)
  rw [List.filter_append, List.filter_cons_of_neg (by simp), ← List.filter_append, others]

namespace Table

/-- What is found under a name once the pairs with one name are left out. -/
theorem get?_filter_ne {β : Type} (name other : String) (table : List (String × β)) :
    get? other (table.filter fun pair => pair.1 ≠ name) =
      if other = name then none else get? other table := by
  induction table with
  | nil => simp [get?]
  | cons pair rest ih =>
    by_cases same : pair.1 = name
    · rw [List.filter_cons_of_neg (by simpa using same), ih]
      by_cases here : other = name
      · simp [here]
      · simp [here, get?, same, Ne.symm here]
    · rw [List.filter_cons_of_pos (by simpa using same)]
      by_cases found : pair.1 = other
      · simp [get?, found, found ▸ same]
      · simpa only [get?, found, if_false] using ih

theorem get?_insert {β : Type} (name other : String) (x : β) (table : List (String × β)) :
    get? other (insert name x table) = if name = other then some x else get? other table := by
  by_cases same : name = other
  · subst same
    rw [get?_insert_self, if_pos rfl]
  · rw [get?_insert_of_ne same, if_neg same]

end Table

end LayerGraph
