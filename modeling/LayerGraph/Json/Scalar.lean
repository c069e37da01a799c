import LayerGraph.Json.Fault

/-!
# Words, numbers and strings of JSON

Readers for the values without parts. A reader gets what is left of the text and answers what it
read and what is left then, or the fault that stopped it.
-/

namespace LayerGraph

namespace Json

abbrev Reader (α : Type) :=
  List Char → Except Fault (α × List Char)

/-- The four blank characters of JSON. -/
def isBlank (c : Char) : Bool :=
  c = ' ' || c = '\t' || c = '\n' || c = '\r'

def skipBlanks (s : List Char) : List Char :=
  s.dropWhile isBlank

/-- Reads the rest of a fixed word. A wrong character is a fault right behind it. -/
def word : List Char → List Char → Except Fault (List Char)
  | [], s => .ok s
  | _ :: _, [] => .error (.here .endOfValue [])
  | w :: ws, c :: s => if c = w then word ws s else .error (.next .expectedWord (c :: s))

def digitValue (c : Char) : Nat :=
  c.toNat - '0'.toNat

def spanDigits (s : List Char) : List Char × List Char :=
  (s.takeWhile Char.isDigit, s.dropWhile Char.isDigit)

/-- Appends digits to a number as long as it stays within a limit. Answers the number and the
digits that did not fit. -/
def appendDigits (limit : Nat) : Nat → List Char → Nat × List Char
  | n, [] => (n, [])
  | n, c :: rest =>
    if 10 * n + digitValue c ≤ limit then appendDigits limit (10 * n + digitValue c) rest
    else (n, c :: rest)

/-- The greatest significand. Digits that would push it higher only count as places. -/
def maxSignificand : Nat :=
  UInt64.size - 1

/-- The greatest exponent that is kept. Beyond it a number is zero or out of range. -/
def maxExponent : Nat :=
  (1 <<< 31) - 1

def floatNumber (negative : Bool) (significand : Nat) (exponent : Int) : Reader Number := fun s =>
  match Binary64.ofDecimal? negative (UInt64.ofNat significand) exponent with
  | some x => .ok (.float x, s)
  | none => .error (.here .numberOutOfRange s)

def exponentPart (negative : Bool) (significand : Nat) (places : Int) : Reader Number := fun s =>
  let (down, s) :=
    match s with
    | '+' :: r => (false, r)
    | '-' :: r => (true, r)
    | _ => (false, s)
  match spanDigits s with
  | ([], _) => .error (if s.isEmpty then .here .endOfValue [] else .next .invalidNumber s)
  | (digits, r) =>
    match appendDigits maxExponent 0 digits with
    | (exponent, []) =>
      floatNumber negative significand (if down then places - exponent else places + exponent) r
    | (_, _ :: left) =>
      if significand ≠ 0 && !down then .error (.here .numberOutOfRange (left ++ r))
      else .ok (.float (.zero negative), r)

def fractionPart (negative : Bool) (significand : Nat) (places : Int) : Reader Number := fun s =>
  match spanDigits s with
  | ([], _) => .error (.next (if s.isEmpty then .endOfValue else .invalidNumber) s)
  | (digits, r) =>
    let (significand, left) := appendDigits maxSignificand significand digits
    let places := places - (digits.length - left.length : Nat)
    match r with
    | 'e' :: r | 'E' :: r => exponentPart negative significand places r
    | _ => floatNumber negative significand places r

/-- Reads a number on, behind its integer digits, of which `dropped` did not fit into the
significand. -/
def afterInteger (negative : Bool) (significand dropped : Nat) : Reader Number := fun s =>
  match s with
  | '.' :: r => fractionPart negative significand dropped r
  | 'e' :: r | 'E' :: r => exponentPart negative significand dropped r
  | _ =>
    if dropped = 0 then .ok (.ofInteger negative (UInt64.ofNat significand), s)
    else floatNumber negative significand dropped s

/-- Reads a number behind its sign. A leading zero stands alone. -/
def number (negative : Bool) : Reader Number := fun s =>
  match s with
  | [] => .error (.here .endOfValue [])
  | '0' :: r =>
    if r.head?.any Char.isDigit then .error (.next .invalidNumber r)
    else afterInteger negative 0 0 r
  | c :: _ =>
    if c.isDigit then
      let (digits, r) := spanDigits s
      let (significand, left) := appendDigits maxSignificand 0 digits
      afterInteger negative significand left.length r
    else .error (.next .invalidNumber s)

def hexValue? (c : Char) : Option Nat :=
  if '0' ≤ c && c ≤ '9' then some (c.toNat - '0'.toNat)
  else if 'a' ≤ c && c ≤ 'f' then some (c.toNat - 'a'.toNat + 10)
  else if 'A' ≤ c && c ≤ 'F' then some (c.toNat - 'A'.toNat + 10)
  else none

def hexFour? (a b c d : Char) : Option Nat := do
  let a ← hexValue? a
  let b ← hexValue? b
  let c ← hexValue? c
  let d ← hexValue? d
  return ((a * 16 + b) * 16 + c) * 16 + d

/-- The fault of a text that does not start with four hexadecimal digits. It lies behind four
bytes, or at the end of a text that has fewer. -/
def hexFault (s : List Char) : Fault :=
  if byteLength s < 4 then .here .endOfString [] else ⟨.invalidEscape, s, 4⟩

def hexFour : Reader Nat := fun s =>
  match s with
  | a :: b :: c :: d :: r =>
    match hexFour? a b c d with
    | some n => .ok (n, r)
    | none => .error (hexFault s)
  | _ => .error (hexFault s)

def isHighSurrogate (n : Nat) : Bool :=
  0xd800 ≤ n && n ≤ 0xdbff

def isLowSurrogate (n : Nat) : Bool :=
  0xdc00 ≤ n && n ≤ 0xdfff

/-- Reads the second half of a surrogate pair. Anything but an escape is a fault behind it. -/
def secondSurrogate (high : Nat) : Reader Char := fun s =>
  match s with
  | [] | ['\\'] => .error (.here .endOfString [])
  | '\\' :: 'u' :: r =>
    match hexFour r with
    | .error fault => .error fault
    | .ok (low, r) =>
      if isLowSurrogate low then
        .ok (Char.ofNat (0x10000 + (high - 0xd800) * 0x400 + (low - 0xdc00)), r)
      else .error (.here .loneSurrogate r)
  | '\\' :: r => .error (.next .unpairedSurrogate r)
  | r => .error (.next .unpairedSurrogate r)

def shortEscape? : Char → Option Char
  | '"' => some '"'
  | '\\' => some '\\'
  | '/' => some '/'
  | 'b' => some '\x08'
  | 'f' => some '\x0c'
  | 'n' => some '\n'
  | 'r' => some '\r'
  | 't' => some '\t'
  | _ => none

/-- Reads an escape behind its backslash. Surrogates have to come in pairs. -/
def escape : Reader Char := fun s =>
  match s with
  | [] => .error (.here .endOfString [])
  | 'u' :: r =>
    match hexFour r with
    | .error fault => .error fault
    | .ok (n, r) =>
      if isLowSurrogate n then .error (.here .loneSurrogate r)
      else if isHighSurrogate n then secondSurrogate n r
      else .ok (Char.ofNat n, r)
  | c :: r =>
    match shortEscape? c with
    | some x => .ok (x, r)
    | none => .error (.next .invalidEscape s)

theorem length_lt_of_hexFour {s r : List Char} {n : Nat} (h : hexFour s = .ok (n, r)) :
    r.length < s.length := by
  unfold hexFour at h
  split at h
  · split at h
    · obtain ⟨rfl, rfl⟩ : _ ∧ _ := by simpa using h
      simp only [List.length_cons]
      omega
    · simp at h
  · simp at h

theorem length_lt_of_secondSurrogate {high : Nat} {s r : List Char} {c : Char}
    (h : secondSurrogate high s = .ok (c, r)) : r.length < s.length := by
  unfold secondSurrogate at h
  split at h
  · simp at h
  · simp at h
  · split at h
    · simp at h
    · rename_i hf
      have := length_lt_of_hexFour hf
      split at h
      · obtain ⟨_, rfl⟩ : _ ∧ _ := by simpa using h
        simp only [List.length_cons]
        omega
      · simp at h
  · simp at h
  · simp at h

theorem length_lt_of_escape {s r : List Char} {c : Char} (h : escape s = .ok (c, r)) :
    r.length < s.length := by
  unfold escape at h
  split at h
  · simp at h
  · split at h
    · simp at h
    · rename_i hf
      have := length_lt_of_hexFour hf
      simp only [List.length_cons]
      split at h
      · simp at h
      · split at h
        · have := length_lt_of_secondSurrogate h
          omega
        · obtain ⟨_, rfl⟩ : _ ∧ _ := by simpa using h
          omega
  · split at h
    · obtain ⟨_, rfl⟩ : _ ∧ _ := by simpa using h
      simp
    · simp at h

/-- Reads the characters of a string behind its opening quote, and the closing one. A control
character is a fault behind it. -/
def stringChars (s : List Char) : Except Fault (List Char × List Char) :=
  match s with
  | [] => .error (.here .endOfString [])
  | '"' :: r => .ok ([], r)
  | '\\' :: r =>
    match h : escape r with
    | .error fault => .error fault
    | .ok (c, r') =>
      have := length_lt_of_escape h
      match stringChars r' with
      | .error fault => .error fault
      | .ok (cs, r'') => .ok (c :: cs, r'')
  | c :: r =>
    if c.toNat < 32 then .error (.next .controlCharacter (c :: r))
    else
      match stringChars r with
      | .error fault => .error fault
      | .ok (cs, r') => .ok (c :: cs, r')
termination_by s.length

def string : Reader String := fun s =>
  match stringChars s with
  | .error fault => .error fault
  | .ok (cs, r) => .ok (String.ofList cs, r)

def scalar : Reader Value := fun s =>
  match s with
  | [] => .error (.next .endOfValue [])
  | 'n' :: r => do
    let r ← word ['u', 'l', 'l'] r
    return (.null, r)
  | 't' :: r => do
    let r ← word ['r', 'u', 'e'] r
    return (.bool true, r)
  | 'f' :: r => do
    let r ← word ['a', 'l', 's', 'e'] r
    return (.bool false, r)
  | '"' :: r => do
    let (text, r) ← string r
    return (.string text, r)
  | '-' :: r => do
    let (n, r) ← number true r
    return (.number n, r)
  | c :: _ =>
    if c.isDigit then do
      let (n, r) ← number false s
      return (.number n, r)
    else .error (.next .expectedValue s)

end Json

end LayerGraph
