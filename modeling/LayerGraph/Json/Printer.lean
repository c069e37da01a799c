import LayerGraph.Json.Value
import LayerGraph.Number.Shortest

/-!
# JSON text of values

Two layouts of one grammar: compact, without any blanks, and indented by two spaces a level.
Object members are printed in the order in which they stand.
-/

namespace LayerGraph

namespace Json

def Number.text : Number → List Char
  | .unsigned n => Nat.toDigits 10 n.toNat
  | .signed n =>
    if n < 0 then '-' :: Nat.toDigits 10 n.toInt.natAbs else Nat.toDigits 10 n.toInt.natAbs
  | .float x => x.text

def hexPair (n : Nat) : List Char :=
  [Nat.digitChar (n / 16), Nat.digitChar (n % 16)]

/-- A character inside a JSON string. Quotes, backslashes and controls are escaped, nothing
else is. -/
def escapedChar (c : Char) : List Char :=
  if c = '"' then ['\\', '"']
  else if c = '\\' then ['\\', '\\']
  else if 32 ≤ c.toNat then [c]
  else if c = '\n' then ['\\', 'n']
  else if c = '\r' then ['\\', 'r']
  else if c = '\t' then ['\\', 't']
  else if c.toNat = 8 then ['\\', 'b']
  else if c.toNat = 12 then ['\\', 'f']
  else ['\\', 'u', '0', '0'] ++ hexPair c.toNat

def stringText (s : String) : List Char :=
  '"' :: (s.toList.flatMap escapedChar ++ ['"'])

namespace Value

mutual

def chars : Value → List Char
  | .null => ['n', 'u', 'l', 'l']
  | .bool true => ['t', 'r', 'u', 'e']
  | .bool false => ['f', 'a', 'l', 's', 'e']
  | .number n => n.text
  | .string s => stringText s
  | .array elements => '[' :: (elementChars elements ++ [']'])
  | .object members => '\x7b' :: (memberChars members ++ ['\x7d'])
termination_by structural value => value

def elementChars : List Value → List Char
  | [] => []
  | [x] => x.chars
  | x :: y :: rest => x.chars ++ ',' :: elementChars (y :: rest)
termination_by structural elements => elements

def memberChars : List (String × Value) → List Char
  | [] => []
  | [m] => pairChars m
  | m :: n :: rest => pairChars m ++ ',' :: memberChars (n :: rest)
termination_by structural members => members

def pairChars : String × Value → List Char
  | (name, x) => stringText name ++ ':' :: x.chars
termination_by structural member => member

end

def text (x : Value) : String :=
  String.ofList x.chars

def newLine (depth : Nat) : List Char :=
  '\n' :: List.replicate (2 * depth) ' '

mutual

def indentedChars (depth : Nat) : Value → List Char
  | .array [] => ['[', ']']
  | .array (x :: rest) => '[' :: (indentedElements (depth + 1) (x :: rest) ++ newLine depth ++ [']'])
  | .object [] => ['\x7b', '\x7d']
  | .object (m :: rest) =>
    '\x7b' :: (indentedMembers (depth + 1) (m :: rest) ++ newLine depth ++ ['\x7d'])
  | .null => ['n', 'u', 'l', 'l']
  | .bool true => ['t', 'r', 'u', 'e']
  | .bool false => ['f', 'a', 'l', 's', 'e']
  | .number n => n.text
  | .string s => stringText s
termination_by structural value => value

def indentedElements (depth : Nat) : List Value → List Char
  | [] => []
  | [x] => newLine depth ++ x.indentedChars depth
  | x :: y :: rest => newLine depth ++ x.indentedChars depth ++ ',' :: indentedElements depth (y :: rest)
termination_by structural elements => elements

def indentedMembers (depth : Nat) : List (String × Value) → List Char
  | [] => []
  | [m] => newLine depth ++ indentedPair depth m
  | m :: n :: rest => newLine depth ++ indentedPair depth m ++ ',' :: indentedMembers depth (n :: rest)
termination_by structural members => members

def indentedPair (depth : Nat) : String × Value → List Char
  | (name, x) => stringText name ++ ':' :: ' ' :: x.indentedChars depth
termination_by structural member => member

end

def indentedText (x : Value) : String :=
  String.ofList (x.indentedChars 0)

end Value

end Json

end LayerGraph
