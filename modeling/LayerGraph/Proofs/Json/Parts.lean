import LayerGraph.Proofs.Json.Agreement

/-!
# Decoding values by their parts

A decoder of a list takes each element. A decoder of a record takes, for each of its fields, what
the value holds for it: the member of that name or the element at that place. So what a record is
decoded from can be said field by field, in whatever order the members stand.
-/

namespace LayerGraph

namespace Json

namespace Value

inductive HoldsRecord (size : Nat) : Value → Prop
  | object (members : List (String × Value)) : HoldsRecord size (.object members)
  | array {elements : List Value} (short : elements.length ≤ size) :
    HoldsRecord size (.array elements)

/-- What a value holds for the field of a record that has this name and this place. -/
def part? (name : String) (place : Nat) : Value → Option Value
  | .object members => Table.get? name members
  | .array elements => elements[place]?
  | _ => none

theorem Distinct.part {v x : Value} (distinct : v.Distinct) {name : String} {place : Nat}
    (found : v.part? name place = some x) : x.Distinct := by
  cases distinct with
  | array each => exact each x (List.mem_of_getElem? found)
  | object names each => exact each _ ((Table.mem_iff_get? names).mpr found)
  | _ => contradiction

end Value

namespace Decoder

variable {α β : Type}

theorem list_ofValue_iff {item : Decoder α} {v : Value} {xs : List α} :
    item.list.ofValue v = .ok xs ↔
      ∃ vs, v = .array vs ∧ List.Forall₂ (fun v x => item.ofValue v = .ok x) vs xs := by
  cases v with
  | array vs => simp [Decoder.list, mapM_eq_ok_iff]
  | _ => simp [Decoder.list]

def Takes (item : Decoder β) (default : β) : Option Value → β → Prop
  | none, y => y = default
  | some v, y => item.ofValue v = .ok y

def changeByPart (field : Field α) (part : Option Value) (record : α) : Except Mismatch α :=
  match part with
  | none => .ok record
  | some x => (field.change.ofValue x).map fun change => change record

def changeByParts (v : Value) : List (Field α) → Nat → α → Except Mismatch α
  | [], _, record => .ok record
  | field :: fields, place, record => do
    let record ← changeByPart field (v.part? field.name place) record
    changeByParts v fields (place + 1) record

/-- A field that still has its default is set to what its decoder takes. -/
theorem changeByParts_of_iff {name : String} {item : Decoder β} {set : β → α → α} (default : β)
    {record : α} (unset : set default record = record) {v : Value} {fields : List (Field α)}
    {place : Nat} {x : α} :
    changeByParts v (.of name item set :: fields) place record = .ok x ↔
      ∃ y, item.Takes default (v.part? name place) y ∧
        changeByParts v fields (place + 1) (set y record) = .ok x := by
  simp only [changeByParts, Field.of_name]
  cases v.part? name place with
  | none => simp [changeByPart, Takes, unset]
  | some part =>
    simp only [changeByPart, Takes, Field.of, Decoder.map, bind_eq_ok_iff, map_eq_ok_iff]
    constructor
    · rintro ⟨_, ⟨_, ⟨y, taken, rfl⟩, rfl⟩, changed⟩
      exact ⟨y, taken, changed⟩
    · rintro ⟨y, taken, changed⟩
      exact ⟨_, ⟨_, ⟨y, taken, rfl⟩, rfl⟩, changed⟩

theorem changeByParts_nil_iff {v : Value} {place : Nat} {record x : α} :
    changeByParts v [] place record = .ok x ↔ record = x := by
  simp [changeByParts]

theorem changeInOrder_eq_changeByParts (elements : List Value) (fields : List (Field α))
    (place : Nat) (record : α) :
    changeInOrder fields (elements.drop place) record =
      changeByParts (.array elements) fields place record := by
  induction fields generalizing place record with
  | nil => rfl
  | cons field fields ih =>
    simp only [changeByParts, Value.part?]
    cases found : elements[place]? with
    | none =>
      have ended : elements.length ≤ place := List.getElem?_eq_none_iff.mp found
      rw [changeByPart, ok_bind, ← ih, List.drop_of_length_le ended,
        List.drop_of_length_le (Nat.le_succ_of_le ended)]
      cases fields <;> rfl
    | some v =>
      obtain ⟨inside, rfl⟩ := List.getElem?_eq_some_iff.mp found
      rw [List.drop_eq_getElem_cons inside, changeInOrder, changeByPart]
      cases field.change.ofValue elements[place] with
      | error mismatch => rfl
      | ok change => exact ih (place + 1) (change record)

/-- A member that no field is named after changes nothing. -/
theorem changeByName_of_not_mem {fields : List (Field α)} {member : String × Value}
    (unknown : member.1 ∉ fields.map (·.name)) (record : α) :
    changeByName fields record member = .ok record := by
  have unknown : field? fields member.1 = none := by simpa [field?] using unknown
  rw [changeByName, unknown]

/-- Without fields, members change nothing. -/
theorem foldlM_changeByName_nil (members : List (String × Value)) (record : α) :
    members.foldlM (changeByName []) record = .ok record := by
  induction members with
  | nil => rfl
  | cons member members ih => exact ih

/-- The field in front plays no part where no member has its name. -/
theorem foldlM_changeByName_of_not_mem {field : Field α} {fields : List (Field α)}
    {members : List (String × Value)} (absent : field.name ∉ members.map (·.1)) (record : α) :
    members.foldlM (changeByName (field :: fields)) record =
      members.foldlM (changeByName fields) record := by
  induction members generalizing record with
  | nil => rfl
  | cons member members ih =>
    obtain ⟨other, absent⟩ := not_or.mp (mt List.mem_cons.mpr absent)
    simp only [List.foldlM_cons, changeByName_of_ne other, ih absent]

/-- Members in any order change a record as its fields do one after another. -/
theorem foldlM_changeByName_iff {fields : List (Field α)} (apart : fields.Pairwise Apart)
    (fresh : (fields.map (·.name)).Nodup) {members : List (String × Value)}
    (names : (members.map (·.1)).Nodup) {place : Nat} {record x : α} :
    members.foldlM (changeByName fields) record = .ok x ↔
      changeByParts (.object members) fields place record = .ok x := by
  induction fields generalizing place record with
  | nil => rw [foldlM_changeByName_nil, changeByParts]
  | cons field fields ih =>
    obtain ⟨new, fresh⟩ := List.nodup_cons.mp fresh
    have ih := @ih (List.pairwise_cons.mp apart).2 fresh (place + 1)
    simp only [changeByParts, Value.part?]
    cases found : Table.get? field.name members with
    | none =>
      rw [foldlM_changeByName_of_not_mem (Table.get?_eq_none_iff.mp found), changeByPart, ok_bind,
        ih]
    | some v =>
      -- The member of the field can be taken first, and then the other fields pass it over.
      obtain ⟨others, perm, different⟩ := Table.perm_of_get? names found
      have first : changeByName (field :: fields) record (field.name, v) =
          changeByPart field (some v) record := by
        simp [changeByName_eq, memberChange, field?, changeByPart]
      rw [foldlM_changeByName_perm apart perm names, List.foldlM_cons, first, bind_eq_ok_iff,
        bind_eq_ok_iff]
      apply exists_congr
      intro changed
      rw [foldlM_changeByName_of_not_mem different, ← ih,
        foldlM_changeByName_perm (List.pairwise_cons.mp apart).2 perm names, List.foldlM_cons,
        changeByName_of_not_mem new, ok_bind]

/-- A record is decoded from a value that can hold it, field by field. -/
theorem record_ofValue_iff {form : String} {fields : List (Field α)}
    (apart : fields.Pairwise Apart) (fresh : (fields.map (·.name)).Nodup) {blank x : α} {v : Value}
    (distinct : v.Distinct) :
    (record form fields blank).ofValue v = .ok x ↔
      v.HoldsRecord fields.length ∧ changeByParts v fields 0 blank = .ok x := by
  cases distinct with
  | @array elements _ =>
    have parts := changeInOrder_eq_changeByParts elements fields 0 blank
    rw [List.drop_zero] at parts
    rw [record_ofValue_array, parts]
    exact ⟨fun ⟨changed, short⟩ => ⟨.array short, changed⟩,
      fun | ⟨.array short, changed⟩ => ⟨changed, short⟩⟩
  | object names _ =>
    rw [← foldlM_changeByName_iff apart fresh names]
    exact ⟨fun changed => ⟨.object _, changed⟩, And.right⟩
  | null | bool | number | string =>
    refine ⟨fun changed => ?_, fun ⟨holds, _⟩ => nomatch holds⟩
    cases changed

end Decoder

end Json

end LayerGraph
