import LayerGraph.Number.Binary64
import LayerGraph.Table

/-!
# JSON values

A number keeps the class in which it was written: an unsigned word, a negative integer of 64
bits, or a binary64 number. An object is the list of its members in the order in which they are
printed; objects that were read are in increasing order of names, without repeats.
-/

namespace LayerGraph

namespace Json

/-- A JSON number. The class `signed` is used for negative integers only. -/
inductive Number where
  | unsigned (n : UInt64)
  | signed (n : Int64)
  | float (x : Binary64)
  deriving DecidableEq, Repr

namespace Number

/-- An integer literal without fraction and exponent, given its sign and digits. Minus zero and
what lies below `-2 ^ 63` is a binary64 number. -/
def ofInteger (negative : Bool) (word : UInt64) : Number :=
  if !negative then .unsigned word
  else if 0 < word.toNat && word.toNat ≤ 1 <<< 63 then .signed (Int64.ofInt (-word.toNat))
  else .float (Binary64.ofWord true word)

def ofInt64 (n : Int64) : Number :=
  if n < 0 then .signed n else .unsigned n.toUInt64

def toInt64? : Number → Option Int64
  | .unsigned n => if n.toNat < 1 <<< 63 then some n.toInt64 else none
  | .signed n => some n
  | .float _ => none

def toBinary64 : Number → Binary64
  | .unsigned n => .ofWord false n
  | .signed n => .ofWord (n < 0) (UInt64.ofNat n.toInt.natAbs)
  | .float x => x

/-- The integer that a number stands for. Where the integer class gives none, the binary64 view
counts if it is an integer of magnitude at most `2 ^ 53`; beyond that bound a word may have been
rounded. -/
def integer? (x : Number) : Option Int64 :=
  x.toInt64?.or <|
    (x.toBinary64.toInt?.filter fun n => n.natAbs ≤ 1 <<< 53).map Int64.ofInt

end Number

inductive Value where
  | null
  | bool (b : Bool)
  | number (n : Number)
  | string (s : String)
  | array (elements : List Value)
  | object (members : List (String × Value))
  deriving Repr, Inhabited

namespace Value

mutual

/-- The value with the members of all its objects in increasing order of names; of several with
one name the last counts. -/
def sorted : Value → Value
  | .null => .null
  | .bool b => .bool b
  | .number n => .number n
  | .string s => .string s
  | .array elements => .array (sortedElements elements)
  | .object members => .object (Table.ofList (sortedMembers members))
termination_by structural value => value

def sortedElements : List Value → List Value
  | [] => []
  | x :: rest => x.sorted :: sortedElements rest
termination_by structural elements => elements

def sortedMembers : List (String × Value) → List (String × Value)
  | [] => []
  | member :: rest => sortedMember member :: sortedMembers rest
termination_by structural members => members

def sortedMember : String × Value → String × Value
  | (name, x) => (name, x.sorted)
termination_by structural member => member

end

def strings (texts : List String) : Value :=
  .array (texts.map .string)

/-- A natural number below `2 ^ 64`. -/
def nat (n : Nat) : Value :=
  .number (.unsigned (UInt64.ofNat n))

def word (n : UInt64) : Value :=
  .number (.unsigned n)

def string? (text : Option String) : Value :=
  text.elim .null .string

end Value

end Json

end LayerGraph
