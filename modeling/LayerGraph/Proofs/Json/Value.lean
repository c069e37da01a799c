import LayerGraph.Json.Value
import LayerGraph.Proofs.Table

/-!
# Properties of JSON values

Which values repeat no names, fit into a text, or hold integers only. Sorting the members of objects
keeps all of this, and what is sorted stays as it is.
-/

namespace LayerGraph

namespace Json

/-- Only negative numbers are of the class `signed`, and the others are of another class. -/
def Number.Genuine : Number → Prop
  | .signed n => n < 0
  | _ => True

namespace Value

theorem sortedElements_eq (xs : List Value) : sortedElements xs = xs.map sorted := by
  induction xs with
  | nil => rfl
  | cons x rest ih => rw [sortedElements, ih, List.map_cons]

theorem sortedMembers_eq (members : List (String × Value)) :
    sortedMembers members = members.map sortedMember := by
  induction members with
  | nil => rfl
  | cons member rest ih => rw [sortedMembers, ih, List.map_cons]

theorem sortedMember_eq (member : String × Value) :
    sortedMember member = (member.1, member.2.sorted) := by
  cases member
  rfl

theorem sorted_array (xs : List Value) : (array xs).sorted = array (xs.map sorted) := by
  rw [sorted, sortedElements_eq]

theorem sorted_object (members : List (String × Value)) :
    (object members).sorted = object (Table.ofList (members.map sortedMember)) := by
  rw [sorted, sortedMembers_eq]

theorem sorted_eq_null {x : Value} : x.sorted = .null ↔ x = .null := by
  cases x <;> simp [sorted]

theorem map_fst_sortedMember (members : List (String × Value)) :
    (members.map sortedMember).map (·.1) = members.map (·.1) := by
  rw [List.map_map]
  exact List.map_congr_left fun member _ => by rw [Function.comp, sortedMember_eq]

/-- Induction on a value by its parts. -/
@[elab_as_elim]
theorem parts_induction {motive : Value → Prop} (null : motive null) (bool : ∀ b, motive (bool b))
    (number : ∀ n, motive (number n)) (string : ∀ s, motive (string s))
    (array : ∀ xs, (∀ x ∈ xs, motive x) → motive (array xs))
    (object : ∀ members, (∀ m ∈ members, motive m.2) → motive (object members)) :
    ∀ x, motive x
  | .null => null
  | .bool b => bool b
  | .number n => number n
  | .string s => string s
  | .array xs => array xs fun x _ => parts_induction null bool number string array object x
  | .object members => object members fun m inside =>
      have : sizeOf m.2 < sizeOf m := by cases m; simp
      have : sizeOf m < sizeOf members := List.sizeOf_lt_of_mem inside
      parts_induction null bool number string array object m.2

inductive Plain : Value → Prop
  | null : Plain .null
  | bool (b : Bool) : Plain (.bool b)
  | number (n : Number) : Plain (.number n)
  | string (s : String) : Plain (.string s)

inductive Distinct : Value → Prop
  | null : Distinct .null
  | bool (b : Bool) : Distinct (.bool b)
  | number (n : Number) : Distinct (.number n)
  | string (s : String) : Distinct (.string s)
  | array {xs : List Value} (each : ∀ x ∈ xs, Distinct x) : Distinct (.array xs)
  | object {members : List (String × Value)} (names : (members.map (·.1)).Nodup)
    (each : ∀ m ∈ members, Distinct m.2) : Distinct (.object members)

attribute [simp] Distinct.null Distinct.bool Distinct.number Distinct.string

@[simp] theorem distinct_array {xs : List Value} :
    (array xs).Distinct ↔ ∀ x ∈ xs, x.Distinct :=
  ⟨fun | .array each => each, .array⟩

@[simp] theorem distinct_object {members : List (String × Value)} :
    (object members).Distinct ↔ (members.map (·.1)).Nodup ∧ ∀ m ∈ members, m.2.Distinct :=
  ⟨fun | .object names each => ⟨names, each⟩, fun ⟨names, each⟩ => .object names each⟩

inductive Integral : Value → Prop
  | null : Integral .null
  | bool (b : Bool) : Integral (.bool b)
  | unsigned (n : UInt64) : Integral (.number (.unsigned n))
  | signed (n : Int64) : Integral (.number (.signed n))
  | string (s : String) : Integral (.string s)
  | array {xs : List Value} (each : ∀ x ∈ xs, Integral x) : Integral (.array xs)
  | object {members : List (String × Value)} (each : ∀ m ∈ members, Integral m.2) :
    Integral (.object members)

attribute [simp] Integral.null Integral.bool Integral.unsigned Integral.signed Integral.string

@[simp] theorem integral_array {xs : List Value} :
    (array xs).Integral ↔ ∀ x ∈ xs, x.Integral :=
  ⟨fun | .array each => each, .array⟩

@[simp] theorem integral_object {members : List (String × Value)} :
    (object members).Integral ↔ ∀ m ∈ members, m.2.Integral :=
  ⟨fun | .object each => each, .object⟩

/-- Lists and objects are nested at most so deep, and the numbers are of the class in which they
would be read. -/
inductive Fits : Nat → Value → Prop
  | null {nesting : Nat} : Fits nesting .null
  | bool {nesting : Nat} (b : Bool) : Fits nesting (.bool b)
  | number {nesting : Nat} {n : Number} (genuine : n.Genuine) : Fits nesting (.number n)
  | string {nesting : Nat} (s : String) : Fits nesting (.string s)
  | array {nesting : Nat} {xs : List Value} (each : ∀ x ∈ xs, Fits nesting x) :
    Fits (nesting + 1) (.array xs)
  | object {nesting : Nat} {members : List (String × Value)}
    (each : ∀ m ∈ members, Fits nesting m.2) : Fits (nesting + 1) (.object members)

attribute [simp] Fits.null Fits.bool Fits.string

@[simp] theorem fits_number {nesting : Nat} {n : Number} :
    (number n).Fits nesting ↔ n.Genuine :=
  ⟨fun | .number genuine => genuine, .number⟩

@[simp] theorem fits_array {nesting : Nat} {xs : List Value} :
    (array xs).Fits (nesting + 1) ↔ ∀ x ∈ xs, x.Fits nesting :=
  ⟨fun | .array each => each, .array⟩

@[simp] theorem fits_object {nesting : Nat} {members : List (String × Value)} :
    (object members).Fits (nesting + 1) ↔ ∀ m ∈ members, m.2.Fits nesting :=
  ⟨fun | .object each => each, .object⟩

theorem mem_sortedMember {P : Value → Prop} {members : List (String × Value)}
    (each : ∀ m ∈ members, P m.2.sorted) :
    ∀ m ∈ Table.ofList (members.map sortedMember), P m.2 := by
  intro m member
  obtain ⟨origin, inside, rfl⟩ := List.mem_map.mp (Table.mem_of_mem_ofList member)
  rw [sortedMember_eq]
  exact each origin inside

theorem distinct_sorted (x : Value) : x.sorted.Distinct := by
  induction x using parts_induction with
  | null => exact .null
  | bool b => exact .bool b
  | number n => exact .number n
  | string s => exact .string s
  | array xs ih =>
    rw [sorted_array]
    exact .array (List.forall_mem_map.mpr ih)
  | object members ih =>
    rw [sorted_object]
    exact .object (Table.sorted_ofList _).nodup_names (mem_sortedMember ih)

theorem Fits.sorted {x : Value} {nesting : Nat} (fits : x.Fits nesting) : x.sorted.Fits nesting := by
  induction fits with
  | null => exact .null
  | bool b => exact .bool b
  | number genuine => exact .number genuine
  | string s => exact .string s
  | array _ ih =>
    rw [sorted_array]
    exact .array (List.forall_mem_map.mpr ih)
  | object _ ih =>
    rw [sorted_object]
    exact .object (mem_sortedMember ih)

theorem sorted_object_eq_self {members : List (String × Value)} (table : Table.Sorted members)
    (each : ∀ m ∈ members, m.2.sorted = m.2) : (object members).sorted = object members := by
  have settled : ∀ m ∈ members, sortedMember m = m := by
    intro m member
    rw [sortedMember_eq, each m member]
  rw [sorted_object, List.map_congr_left settled, List.map_id', Table.ofList_of_sorted table]

theorem sorted_sorted (x : Value) : x.sorted.sorted = x.sorted := by
  induction x using parts_induction with
  | null | bool | number | string => rfl
  | array xs ih =>
    rw [sorted_array, sorted_array, List.map_map]
    exact congrArg array (List.map_congr_left ih)
  | object members ih =>
    rw [sorted_object]
    exact sorted_object_eq_self (Table.sorted_ofList _)
      (@mem_sortedMember (fun y => y.sorted = y) _ ih)

/-- A value as it is kept when it was read. -/
structure Normal (nesting : Nat) (x : Value) : Prop where
  fits : x.Fits nesting
  sorted : x.sorted = x

theorem Normal.distinct {nesting : Nat} {x : Value} (normal : x.Normal nesting) : x.Distinct :=
  normal.sorted ▸ x.distinct_sorted

end Value

end Json

end LayerGraph
