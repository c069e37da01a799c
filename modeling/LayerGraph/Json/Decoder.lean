import LayerGraph.Json.Reader

/-!
# Decoders

A decoder takes a typed value from JSON, in two ways that its two fields describe side by side:
straight from a text, or from a value that has been read before. The combinators below build both
ways from one description, so a record, for instance, has one list of fields for both.
-/

namespace LayerGraph

namespace Json

/-- A decoder of `α`. From a text it may nest lists and objects so deep as it is told. -/
structure Decoder (α : Type) where
  ofText : Nat → Reader α
  ofValue : Value → Except Mismatch α

namespace Decoder

variable {α β : Type}

/-- The fault of a text that goes on with something else than was wanted. A value without parts
is read first, so its own faults come before; a list or an object is not entered. -/
def formFault (wanted : String) (s : List Char) : Fault :=
  match s with
  | '[' :: _ => .here (.mismatch (.form .list wanted)) s
  | '\x7b' :: _ => .here (.mismatch (.form .object wanted)) s
  | _ =>
    match scalar s with
    | .error fault => fault
    | .ok (x, r) => .here (.mismatch (.form x.found wanted)) r

def any : Decoder Value where
  ofText := value
  ofValue x := .ok x

def string : Decoder String where
  ofText _ s :=
    match skipBlanks s with
    | '"' :: r => Json.string r
    | r => .error (formFault "a string" r)
  ofValue
    | .string text => .ok text
    | x => .error (.form x.found "a string")

def table : Decoder (List (String × Value)) where
  ofText nesting s :=
    match skipBlanks s with
    | '\x7b' :: r =>
      match nesting with
      | 0 => .error (.next .nestedTooDeep ('\x7b' :: r))
      | nesting + 1 => do
        let (pairs, r) ← members (value nesting) r
        return (Table.ofList pairs, r)
    | r => .error (formFault "a map" r)
  ofValue
    | .object members => .ok members
    | x => .error (.form x.found "a map")

def list (item : Decoder α) : Decoder (List α) where
  ofText nesting s :=
    match skipBlanks s with
    | '[' :: r =>
      match nesting with
      | 0 => .error (.next .nestedTooDeep ('[' :: r))
      | nesting + 1 => elements (item.ofText nesting) r
    | r => .error (formFault "a sequence" r)
  ofValue
    | .array elements => elements.mapM item.ofValue
    | x => .error (.form x.found "a sequence")

def map (f : α → β) (item : Decoder α) : Decoder β where
  ofText nesting s := do
    let (x, r) ← item.ofText nesting s
    return (f x, r)
  ofValue x := (item.ofValue x).map f

/-- Takes null for a given value. -/
def orNull (default : α) (item : Decoder α) : Decoder α where
  ofText nesting s :=
    match skipBlanks s with
    | 'n' :: r => do
      let r ← word ['u', 'l', 'l'] r
      return (default, r)
    | r => item.ofText nesting r
  ofValue
    | .null => .ok default
    | x => item.ofValue x

/-- A field of a record: its name, and a decoder of the change that it makes to the record. -/
structure Field (α : Type) where
  name : String
  change : Decoder (α → α)

def Field.of (name : String) (item : Decoder β) (set : β → α → α) : Field α :=
  ⟨name, item.map set⟩

def field? (fields : List (Field α)) (name : String) : Option (Field α) :=
  fields.find? fun field => field.name = name

/-- The fault of a member whose name stood before. It lies behind the blanks after the name, and
behind a brace that follows there. -/
def repeatedFault (name : String) (s : List Char) : Fault :=
  let rest :=
    match skipBlanks s with
    | '\x7d' :: r => r
    | r => r
  .here (.mismatch (.repeatedMember name)) rest

/-- Reads the members of a record up to the closing brace. Members of unknown names are passed
over; `seen` holds the known ones that stood before. -/
def fieldsByName (fields : List (Field α)) (nesting : Nat) :
    Nat → Bool → List String → α → Reader α
  | 0, _, _, _, s => .error (.here .endOfObject s)
  | fuel + 1, first, seen, record, s => do
    match ← nextMember first s with
    | none => return (record, s)
    | some s =>
      let (name, s) ← Json.string s
      match field? fields name with
      | none =>
        let s ← colon s
        let s ← skip s
        fieldsByName fields nesting fuel false seen record s
      | some field =>
        if seen.contains name then .error (repeatedFault name s)
        else
          let s ← colon s
          let (change, s) ← field.change.ofText nesting s
          fieldsByName fields nesting fuel false (name :: seen) (change record) s

/-- Reads the elements of a record that is written as a list, in the order of the fields, up to
the closing bracket or the last field. -/
def fieldsInOrder (nesting : Nat) : List (Field α) → Bool → α → Reader α
  | [], _, record, s => .ok (record, s)
  | field :: fields, first, record, s => do
    match ← nextElement first s with
    | none => return (record, s)
    | some s =>
      let (change, s) ← field.change.ofText nesting s
      fieldsInOrder nesting fields false (change record) s

/-- Changes a record by the members of an object; unknown names change nothing. -/
def changeByName (fields : List (Field α)) (record : α) (member : String × Value) :
    Except Mismatch α :=
  match field? fields member.1 with
  | none => .ok record
  | some field => do
    let change ← field.change.ofValue member.2
    return change record

def changeInOrder : List (Field α) → List Value → α → Except Mismatch α
  | field :: fields, x :: rest, record => do
    let change ← field.change.ofValue x
    changeInOrder fields rest (change record)
  | _, _, record => .ok record

/-- A record: an object whose members may stand in any order, or a list of its fields in order.
What is missing stays as in `blank`. -/
def record (form : String) (fields : List (Field α)) (blank : α) : Decoder α where
  ofText nesting s :=
    match skipBlanks s with
    | '[' :: r =>
      match nesting with
      | 0 => .error (.next .nestedTooDeep ('[' :: r))
      | nesting + 1 => do
        let (x, r) ← fieldsInOrder nesting fields true blank r
        let r ← closeList r
        return (x, r)
    | '\x7b' :: r =>
      match nesting with
      | 0 => .error (.next .nestedTooDeep ('\x7b' :: r))
      | nesting + 1 => do
        let (x, r) ← fieldsByName fields nesting (r.length + 1) true [] blank r
        let r ← closeObject r
        return (x, r)
    | r => .error (formFault form r)
  ofValue
    | .array elements => do
      let x ← changeInOrder fields elements blank
      if fields.length < elements.length then .error (.tooLong elements.length) else .ok x
    | .object members => members.foldlM (changeByName fields) blank
    | x => .error (.form x.found form)

/-- Decodes a whole text. Behind the value there may only be blanks. -/
def decode (item : Decoder α) (text : String) : Except Error α :=
  let s := text.toList
  match item.ofText maxNesting s with
  | .error fault => .error ⟨fault.cause, some (fault.position s)⟩
  | .ok (x, r) =>
    match skipBlanks r with
    | [] => .ok x
    | r => .error ⟨.trailingCharacters, some ((Fault.next .trailingCharacters r).position s)⟩

def decodeValue (item : Decoder α) (x : Value) : Except Error α :=
  (item.ofValue x).mapError fun mismatch => ⟨.mismatch mismatch, none⟩

end Decoder

end Json

end LayerGraph
