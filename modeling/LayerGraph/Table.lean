/-!
# Tables sorted by name

Associations from names to values as lists of pairs in increasing order of the names, without
repeats. Names are ordered by code points. Everything that is printed in name order, such as the
members of a JSON object and the inferred shapes, is built by `Table.insert`.
-/

namespace LayerGraph

namespace Table

variable {β : Type}

def get? (name : String) : List (String × β) → Option β
  | [] => none
  | (n, x) :: rest => if n = name then some x else get? name rest

def insert (name : String) (x : β) : List (String × β) → List (String × β)
  | [] => [(name, x)]
  | (n, y) :: rest =>
    if n = name then (name, x) :: rest
    else if name < n then (name, x) :: (n, y) :: rest
    else (n, y) :: insert name x rest

/-- The table of a list of pairs; of several pairs with one name the last counts. -/
def ofList (pairs : List (String × β)) : List (String × β) :=
  pairs.foldl (fun table pair => insert pair.1 pair.2 table) []

theorem get?_insert_self (name : String) (x : β) (table : List (String × β)) :
    get? name (insert name x table) = some x := by
  induction table with
  | nil => simp [insert, get?]
  | cons pair rest ih =>
    obtain ⟨n, y⟩ := pair
    by_cases he : n = name
    · simp [insert, get?, he]
    · by_cases hl : name < n <;> simp [insert, get?, he, hl, ih]

theorem get?_insert_of_ne {name other : String} (h : name ≠ other) (x : β)
    (table : List (String × β)) : get? other (insert name x table) = get? other table := by
  induction table with
  | nil => simp [insert, get?, h]
  | cons pair rest ih =>
    obtain ⟨n, y⟩ := pair
    by_cases he : n = name
    · subst he
      simp [insert, get?, h]
    · by_cases hl : name < n <;> simp [insert, get?, he, hl, h, ih]

end Table

end LayerGraph
