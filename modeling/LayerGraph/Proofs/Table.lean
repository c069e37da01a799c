import LayerGraph.Proofs.Lookup
import Mathlib.Data.List.Perm.Basic
import Mathlib.Data.List.Sort
import Mathlib.Data.String.Basic

/-!
# Tables and what they hold

Insertion keeps the names of a table in strictly increasing order. A sorted table is determined by
what can be looked up in it, and one that is built from pairs with distinct names holds these pairs.
-/

namespace LayerGraph

namespace Table

variable {β : Type}

def Sorted (table : List (String × β)) : Prop :=
  table.Pairwise fun p q => p.1 < q.1

theorem Sorted.nodup_names {table : List (String × β)} (sorted : Sorted table) :
    (table.map (·.1)).Nodup := by
  rw [List.Nodup, List.pairwise_map]
  exact sorted.imp fun less => ne_of_lt less

theorem mem_of_mem_insert {name : String} {x : β} {table : List (String × β)} {p : String × β}
    (member : p ∈ insert name x table) : p = (name, x) ∨ p ∈ table := by
  induction table with
  | nil => simpa [insert] using member
  | cons q rest ih =>
    obtain ⟨n, y⟩ := q
    unfold insert at member
    split at member
    · rcases List.mem_cons.mp member with same | old
      · exact .inl same
      · exact .inr (List.mem_cons_of_mem _ old)
    · split at member
      · exact List.mem_cons.mp member
      · rcases List.mem_cons.mp member with same | inner
        · exact .inr (same ▸ List.mem_cons_self ..)
        · exact (ih inner).imp_right (List.mem_cons_of_mem _)

theorem sorted_insert {table : List (String × β)} (sorted : Sorted table) (name : String) (x : β) :
    Sorted (insert name x table) := by
  induction table with
  | nil => simp [insert, Sorted]
  | cons q rest ih =>
    obtain ⟨n, y⟩ := q
    obtain ⟨least, tail⟩ := List.pairwise_cons.mp sorted
    unfold insert
    split
    · rename_i same
      subst same
      exact List.pairwise_cons.mpr ⟨least, tail⟩
    · rename_i different
      split
      · rename_i less
        refine List.pairwise_cons.mpr ⟨fun p member => ?_, sorted⟩
        rcases List.mem_cons.mp member with rfl | member
        · exact less
        · exact less.trans (least p member)
      · rename_i notLess
        have greater : n < name := lt_of_le_of_ne (not_lt.mp notLess) different
        refine List.pairwise_cons.mpr ⟨fun p member => ?_, ih tail⟩
        rcases mem_of_mem_insert member with rfl | old
        · exact greater
        · exact least p old

theorem mem_iff_get? {table : List (String × β)} (distinct : (table.map (·.1)).Nodup)
    {name : String} {x : β} : (name, x) ∈ table ↔ get? name table = some x := by
  induction table with
  | nil => simp [get?]
  | cons q rest ih =>
    obtain ⟨n, y⟩ := q
    obtain ⟨fresh, distinct⟩ := List.nodup_cons.mp distinct
    by_cases same : n = name
    · subst same
      have absent : (n, x) ∉ rest := fun member => fresh (List.mem_map.mpr ⟨_, member, rfl⟩)
      simp [get?, absent, eq_comm]
    · simp [get?, same, Ne.symm same, ih distinct]

theorem get?_eq_none_iff {table : List (String × β)} {name : String} :
    get? name table = none ↔ name ∉ table.map (·.1) := by
  induction table with
  | nil => simp [get?]
  | cons pair rest ih =>
    by_cases same : pair.1 = name
    · simp [get?, same]
    · simp only [get?, same, if_false, ih, List.map_cons, List.mem_cons, Ne.symm same, false_or]

theorem exists_get?_of_mem {table : List (String × β)} {name : String}
    (listed : name ∈ table.map (·.1)) : ∃ x, get? name table = some x := by
  apply Option.ne_none_iff_exists'.mp
  intro absent
  exact get?_eq_none_iff.mp absent listed

/-- A pair that is there can be moved to the front; no other pair has its name. -/
theorem perm_of_get? {table : List (String × β)} (distinct : (table.map (·.1)).Nodup)
    {name : String} {x : β} (found : get? name table = some x) :
    ∃ others, table.Perm ((name, x) :: others) ∧ name ∉ others.map (·.1) := by
  obtain ⟨front, back, rfl⟩ := List.append_of_mem ((mem_iff_get? distinct).mpr found)
  have moved : (front ++ (name, x) :: back).Perm ((name, x) :: (front ++ back)) :=
    List.perm_middle
  have distinct' := (moved.map (·.1)).nodup_iff.mp distinct
  exact ⟨front ++ back, moved, (List.nodup_cons.mp distinct').1⟩

/-- Sorted tables in which the same can be looked up are equal. -/
theorem Sorted.ext {table other : List (String × β)} (sorted : Sorted table)
    (sorted' : Sorted other) (same : ∀ name, get? name table = get? name other) :
    table = other := by
  have perm : table.Perm other := by
    refine (List.perm_ext_iff_of_nodup sorted.nodup_names.of_map sorted'.nodup_names.of_map).mpr ?_
    rintro ⟨name, x⟩
    rw [mem_iff_get? sorted.nodup_names, mem_iff_get? sorted'.nodup_names, same]
  exact perm.eq_of_pairwise (fun p q _ _ less greater => absurd (less.trans greater) (lt_irrefl _))
    sorted sorted'

theorem insert_perm {name : String} (x : β) {table : List (String × β)}
    (fresh : name ∉ table.map (·.1)) : (insert name x table).Perm ((name, x) :: table) := by
  induction table with
  | nil => exact .refl _
  | cons q rest ih =>
    obtain ⟨n, y⟩ := q
    obtain ⟨different, fresh⟩ : name ≠ n ∧ name ∉ rest.map (·.1) := by simpa using fresh
    unfold insert
    rw [if_neg (Ne.symm different)]
    split
    · exact .refl _
    · exact ((ih fresh).cons _).trans (.swap ..)

/-- The rest of some pairs put into a table, as `ofList` does it. -/
theorem foldl_insert_perm {pairs table : List (String × β)}
    (distinct : ((table ++ pairs).map (·.1)).Nodup) :
    (pairs.foldl (fun table pair => insert pair.1 pair.2 table) table).Perm (table ++ pairs) := by
  induction pairs generalizing table with
  | nil => simp
  | cons pair rest ih =>
    have moved : (table ++ pair :: rest).Perm (pair :: (table ++ rest)) := List.perm_middle
    have distinct' := (moved.map (·.1)).nodup_iff.mp distinct
    have outside := (List.nodup_cons.mp distinct').1
    rw [List.map_append, List.mem_append, not_or] at outside
    have fresh : pair.1 ∉ table.map (·.1) := outside.1
    have grown := (insert_perm pair.2 fresh).append_right rest
    exact (ih ((grown.map (·.1)).nodup_iff.mpr distinct')).trans (grown.trans moved.symm)

/-- A table of pairs with distinct names holds just these pairs. -/
theorem ofList_perm {pairs : List (String × β)} (distinct : (pairs.map (·.1)).Nodup) :
    (ofList pairs).Perm pairs :=
  @foldl_insert_perm β pairs [] distinct

theorem sorted_foldl_insert (pairs : List (String × β)) {table : List (String × β)}
    (sorted : Sorted table) :
    Sorted (pairs.foldl (fun table pair => insert pair.1 pair.2 table) table) := by
  induction pairs generalizing table with
  | nil => exact sorted
  | cons pair rest ih => exact ih (sorted_insert sorted pair.1 pair.2)

theorem sorted_ofList (pairs : List (String × β)) : Sorted (ofList pairs) :=
  sorted_foldl_insert pairs .nil

theorem mem_of_mem_foldl_insert {pairs table : List (String × β)} {p : String × β}
    (member : p ∈ pairs.foldl (fun table pair => insert pair.1 pair.2 table) table) :
    p ∈ table ∨ p ∈ pairs := by
  induction pairs generalizing table with
  | nil => exact .inl member
  | cons pair rest ih =>
    rcases ih member with inner | later
    · rcases mem_of_mem_insert inner with rfl | old
      · exact .inr (List.mem_cons_self ..)
      · exact .inl old
    · exact .inr (List.mem_cons_of_mem _ later)

theorem mem_of_mem_ofList {pairs : List (String × β)} {p : String × β}
    (member : p ∈ ofList pairs) : p ∈ pairs :=
  (mem_of_mem_foldl_insert member).resolve_left List.not_mem_nil

/-- A table that is sorted already is the table of its own pairs. -/
theorem ofList_of_sorted {table : List (String × β)} (sorted : Sorted table) :
    ofList table = table :=
  (ofList_perm sorted.nodup_names).eq_of_pairwise
    (fun _ _ _ _ less greater => absurd (less.trans greater) (lt_irrefl _))
    (sorted_ofList table) sorted

end Table

end LayerGraph
