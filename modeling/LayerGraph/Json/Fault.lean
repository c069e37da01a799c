import LayerGraph.Json.Printer
import LayerGraph.Text.Quoted

/-!
# Faults in JSON

Why a JSON text cannot be read, or a value is not of the expected form. A fault in a text knows
what was left to read, from which its line and column follow.
-/

namespace LayerGraph

namespace Json

inductive Found where
  | null
  | bool (b : Bool)
  | number (n : Number)
  | string (s : String)
  | list
  | object
  deriving DecidableEq, Repr

def Found.text : Found → String
  | .null => "null"
  | .bool b => "boolean `" ++ (if b then "true" else "false") ++ "`"
  | .number (.float x) => "floating point `" ++ String.ofList x.text ++ "`"
  | .number n => "integer `" ++ String.ofList n.text ++ "`"
  | .string s => "string " ++ Text.quoted s
  | .list => "sequence"
  | .object => "map"

def Value.found : Value → Found
  | .null => .null
  | .bool b => .bool b
  | .number n => .number n
  | .string s => .string s
  | .array _ => .list
  | .object _ => .object

inductive Mismatch where
  /-- Something of another form stands where `wanted` was expected. -/
  | form (found : Found) (wanted : String)
  /-- A member that may stand once stands twice. -/
  | repeatedMember (name : String)
  /-- A record written as a list has too many elements. -/
  | tooLong (length : Nat)
  deriving DecidableEq, Repr

def Mismatch.message : Mismatch → String
  | .form found wanted => "invalid type: " ++ found.text ++ ", expected " ++ wanted
  | .repeatedMember name => "duplicate field `" ++ name ++ "`"
  | .tooLong length =>
    "invalid length " ++ toString length ++ ", expected fewer elements in array"

inductive Cause where
  | endOfValue | endOfList | endOfObject | endOfString
  | expectedValue | expectedWord | expectedColon
  | expectedCommaOrListEnd | expectedCommaOrObjectEnd
  | nameNotString | trailingComma | trailingCharacters
  | invalidNumber | numberOutOfRange
  | invalidEscape | controlCharacter | loneSurrogate | unpairedSurrogate
  | nestedTooDeep
  | mismatch (mismatch : Mismatch)
  deriving DecidableEq, Repr

def Cause.message : Cause → String
  | .endOfValue => "EOF while parsing a value"
  | .endOfList => "EOF while parsing a list"
  | .endOfObject => "EOF while parsing an object"
  | .endOfString => "EOF while parsing a string"
  | .expectedValue => "expected value"
  | .expectedWord => "expected ident"
  | .expectedColon => "expected `:`"
  | .expectedCommaOrListEnd => "expected `,` or `]`"
  | .expectedCommaOrObjectEnd => "expected `,` or `\x7d`"
  | .nameNotString => "key must be a string"
  | .trailingComma => "trailing comma"
  | .trailingCharacters => "trailing characters"
  | .invalidNumber => "invalid number"
  | .numberOutOfRange => "number out of range"
  | .invalidEscape => "invalid escape"
  | .controlCharacter => "control character (\\u0000-\\u001F) found while parsing a string"
  | .loneSurrogate => "lone leading surrogate in hex escape"
  | .unpairedSurrogate => "unexpected end of hex escape"
  | .nestedTooDeep => "recursion limit exceeded"
  | .mismatch m => m.message

/-- A fault in a text: its cause, what was left to read, and how many bytes of that count as
read. -/
structure Fault where
  cause : Cause
  rest : List Char
  skip : Nat
  deriving DecidableEq, Repr

def Fault.here (cause : Cause) (rest : List Char) : Fault :=
  ⟨cause, rest, 0⟩

def Fault.next (cause : Cause) (rest : List Char) : Fault :=
  ⟨cause, rest, 1⟩

def byteLength (text : List Char) : Nat :=
  text.foldl (fun length c => length + c.utf8Size) 0

/-- A place in a text. Lines count from one; a column is the number of bytes since the last line
feed. -/
structure Position where
  line : Nat
  column : Nat
  deriving DecidableEq, Repr

/-- The place after a number of bytes of a text, which may fall inside a character. -/
def Position.after (place : Position) : Nat → List Char → Position
  | _, [] => place
  | bytes, c :: rest =>
    if bytes < c.utf8Size then { place with column := place.column + bytes }
    else if c = '\n' then after ⟨place.line + 1, 0⟩ (bytes - 1) rest
    else after { place with column := place.column + c.utf8Size } (bytes - c.utf8Size) rest

def Fault.position (fault : Fault) (text : List Char) : Position :=
  let left := byteLength fault.rest
  Position.after ⟨1, 0⟩ (byteLength text - left + min fault.skip left) text

/-- A complaint about JSON. Faults in a text have a position, misfits of a value have none. -/
structure Error where
  cause : Cause
  position : Option Position
  deriving DecidableEq, Repr

def Error.message (error : Error) : String :=
  match error.position with
  | none => error.cause.message
  | some place =>
    error.cause.message ++ " at line " ++ toString place.line ++ " column " ++ toString place.column

end Json

end LayerGraph
