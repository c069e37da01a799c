import LayerGraph.Catalog
import LayerGraph.Table

/-!
# Parameters of a node

The loosely typed parameters that a document gives a node, and how single ones are read. A
parameter that is null counts as one that is not set.
-/

namespace LayerGraph

open Json (Value)

structure Params where
  members : List (String × Value)
  deriving Repr, Inhabited

namespace Params

def empty : Params :=
  ⟨[]⟩

def set (params : Params) (name : String) (x : Value) : Params :=
  ⟨Table.insert name x params.members⟩

/-- The value of a parameter, unless it is null. -/
def get? (params : Params) (name : String) : Option Value :=
  match Table.get? name params.members with
  | some .null => none
  | found => found

def isSet (params : Params) (name : String) : Bool :=
  (params.get? name).isSome

def number? (params : Params) (name : String) : Option Json.Number :=
  match params.get? name with
  | some (.number x) => some x
  | _ => none

/-- The integer that a parameter is set to. Numbers with an integral value count however they
are written. -/
def integer? (params : Params) (name : String) : Option Int64 :=
  (params.number? name).bind Json.Number.integer?

def integerOrDefault? (params : Params) (schema : Schema) (name : String) : Option Int64 :=
  if params.isSet name then params.integer? name
  else
    match schema.default? name with
    | some (.int n) => some n
    | _ => none

/-- The names that are listed, null ones included. -/
def names (params : Params) : List String :=
  params.members.map (·.1)

def toJson (params : Params) : Value :=
  .object params.members

theorem get?_set_null (params : Params) (name : String) :
    (params.set name .null).get? name = none := by
  simp [get?, set, Table.get?_insert_self]

theorem get?_set_of_ne (params : Params) {name other : String} (h : name ≠ other) (x : Value) :
    (params.set name x).get? other = params.get? other := by
  simp [get?, set, Table.get?_insert_of_ne h]

end Params

end LayerGraph
