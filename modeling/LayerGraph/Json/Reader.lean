import LayerGraph.Json.Scalar

/-!
# Reading JSON values

How lists and objects are walked through, how whole values are read, and how a value that nobody
asked for is passed over. Reading allows lists and objects to be nested `maxNesting` deep; passing
over has no such limit and does not look at what strings and numbers mean.
-/

namespace LayerGraph

namespace Json

def maxNesting : Nat :=
  127

/-- Goes to the next element of a list: what is left from there, or `none` in front of the
closing bracket. Only the first element comes without a comma. -/
def nextElement (first : Bool) (s : List Char) : Except Fault (Option (List Char)) :=
  match skipBlanks s with
  | [] => .error (.next .endOfList [])
  | ']' :: _ => .ok none
  | c :: r =>
    if first then .ok (some (c :: r))
    else if c = ',' then
      match skipBlanks r with
      | [] => .error (.next .endOfValue [])
      | ']' :: r' => .error (.next .trailingComma (']' :: r'))
      | r' => .ok (some r')
    else .error (.next .expectedCommaOrListEnd (c :: r))

def closeList (s : List Char) : Except Fault (List Char) :=
  match skipBlanks s with
  | [] => .error (.next .endOfList [])
  | ']' :: r => .ok r
  | ',' :: r =>
    match skipBlanks r with
    | ']' :: r' => .error (.next .trailingComma (']' :: r'))
    | r' => .error (.next .trailingCharacters r')
  | r => .error (.next .trailingCharacters r)

/-- Goes to the next member of an object: what is left behind the quote that opens its name, or
`none` in front of the closing brace. -/
def nextMember (first : Bool) (s : List Char) : Except Fault (Option (List Char)) :=
  let name (s : List Char) : Except Fault (Option (List Char)) :=
    match s with
    | '"' :: r => .ok (some r)
    | r => .error (.next .nameNotString r)
  match skipBlanks s with
  | [] => .error (.next .endOfObject [])
  | '\x7d' :: _ => .ok none
  | c :: r =>
    if first then name (c :: r)
    else if c = ',' then
      match skipBlanks r with
      | [] => .error (.next .endOfValue [])
      | '\x7d' :: r' => .error (.next .trailingComma ('\x7d' :: r'))
      | r' => name r'
    else .error (.next .expectedCommaOrObjectEnd (c :: r))

def colon (s : List Char) : Except Fault (List Char) :=
  match skipBlanks s with
  | [] => .error (.next .endOfObject [])
  | ':' :: r => .ok r
  | r => .error (.next .expectedColon r)

def closeObject (s : List Char) : Except Fault (List Char) :=
  match skipBlanks s with
  | [] => .error (.next .endOfObject [])
  | '\x7d' :: r => .ok r
  | ',' :: r => .error (.next .trailingComma (',' :: r))
  | r => .error (.next .trailingCharacters r)

/-- Reads the elements of a list up to its closing bracket. Each takes at least one character,
so the length of the text is fuel enough. -/
def elementsUpTo {α : Type} (item : Reader α) : Nat → Bool → Reader (List α)
  | 0, _, s => .error (.here .endOfList s)
  | fuel + 1, first, s => do
    match ← nextElement first s with
    | none => return ([], s)
    | some s =>
      let (x, s) ← item s
      let (xs, s) ← elementsUpTo item fuel false s
      return (x :: xs, s)

def elements {α : Type} (item : Reader α) : Reader (List α) := fun s => do
  let (xs, s) ← elementsUpTo item (s.length + 1) true s
  let s ← closeList s
  return (xs, s)

def membersUpTo {α : Type} (item : Reader α) : Nat → Bool → Reader (List (String × α))
  | 0, _, s => .error (.here .endOfObject s)
  | fuel + 1, first, s => do
    match ← nextMember first s with
    | none => return ([], s)
    | some s =>
      let (name, s) ← string s
      let s ← colon s
      let (x, s) ← item s
      let (rest, s) ← membersUpTo item fuel false s
      return ((name, x) :: rest, s)

def members {α : Type} (item : Reader α) : Reader (List (String × α)) := fun s => do
  let (pairs, s) ← membersUpTo item (s.length + 1) true s
  let s ← closeObject s
  return (pairs, s)

/-- Reads a value that may nest lists and objects so deep, with the members of its objects as they
are written: in the order of the text and with repeats. -/
def written (nesting : Nat) : Reader Value := fun s =>
  match skipBlanks s with
  | '[' :: r =>
    match nesting with
    | 0 => .error (.next .nestedTooDeep ('[' :: r))
    | nesting + 1 => do
      let (xs, r) ← elements (written nesting) r
      return (.array xs, r)
  | '\x7b' :: r =>
    match nesting with
    | 0 => .error (.next .nestedTooDeep ('\x7b' :: r))
    | nesting + 1 => do
      let (pairs, r) ← members (written nesting) r
      return (.object pairs, r)
  | r => scalar r
termination_by structural nesting

/-- Reads a value. The members of its objects are sorted, and of repeated ones the last counts. -/
def value (nesting : Nat) : Reader Value := fun s => do
  let (x, r) ← written nesting s
  return (x.sorted, r)

def skipEscape (s : List Char) : Except Fault (List Char) :=
  match s with
  | [] => .error (.here .endOfString [])
  | 'u' :: r => (hexFour r).map (·.2)
  | c :: r => if (shortEscape? c).isSome then .ok r else .error (.next .invalidEscape s)

theorem length_lt_of_skipEscape {s r : List Char} (h : skipEscape s = .ok r) :
    r.length < s.length := by
  unfold skipEscape at h
  split at h
  · simp at h
  · rename_i t
    cases hf : hexFour t with
    | error fault => simp [hf, Except.map] at h
    | ok p =>
      obtain ⟨n, r'⟩ := p
      simp only [hf, Except.map, Except.ok.injEq] at h
      subst h
      have := length_lt_of_hexFour hf
      simp only [List.length_cons]
      omega
  · split at h
    · simp only [Except.ok.injEq] at h
      subst h
      simp
    · simp at h

/-- Passes over a string behind its opening quote. A control character is a fault in front of
it. -/
def skipString (s : List Char) : Except Fault (List Char) :=
  match s with
  | [] => .error (.here .endOfString [])
  | '"' :: r => .ok r
  | '\\' :: r =>
    match h : skipEscape r with
    | .error fault => .error fault
    | .ok r' =>
      have := length_lt_of_skipEscape h
      skipString r'
  | c :: r => if c.toNat < 32 then .error (.here .controlCharacter (c :: r)) else skipString r
termination_by s.length

def skipExponent (s : List Char) : Except Fault (List Char) :=
  let s :=
    match s with
    | '+' :: r | '-' :: r => r
    | _ => s
  match spanDigits s with
  | ([], _) => .error (.next .invalidNumber s)
  | (_, r) => .ok r

def skipNumber (s : List Char) : Except Fault (List Char) :=
  let afterFraction (s : List Char) : Except Fault (List Char) :=
    match s with
    | 'e' :: r | 'E' :: r => skipExponent r
    | _ => .ok s
  let afterInteger (s : List Char) : Except Fault (List Char) :=
    match s with
    | '.' :: r =>
      match spanDigits r with
      | ([], _) => .error (.next .invalidNumber r)
      | (_, r) => afterFraction r
    | _ => afterFraction s
  match s with
  | '0' :: r =>
    if r.head?.any Char.isDigit then .error (.next .invalidNumber r) else afterInteger r
  | _ =>
    match spanDigits s with
    | ([], _) => .error (.next .invalidNumber s)
    | (_, r) => afterInteger r

def skipScalar (s : List Char) : Except Fault (List Char) :=
  match s with
  | [] => .error (.next .endOfValue [])
  | 'n' :: r => word ['u', 'l', 'l'] r
  | 't' :: r => word ['r', 'u', 'e'] r
  | 'f' :: r => word ['a', 'l', 's', 'e'] r
  | '"' :: r => skipString r
  | '-' :: r => skipNumber r
  | c :: _ => if c.isDigit then skipNumber s else .error (.next .expectedValue s)

def skipElements (item : List Char → Except Fault (List Char)) :
    Nat → Bool → List Char → Except Fault (List Char)
  | 0, _, s => .error (.here .endOfList s)
  | fuel + 1, first, s =>
    match skipBlanks s with
    | [] => .error (.next .endOfList [])
    | ']' :: r => .ok r
    | c :: r =>
      if first then do
        let s ← item (c :: r)
        skipElements item fuel false s
      else if c = ',' then do
        let s ← item r
        skipElements item fuel false s
      else .error (.next .expectedCommaOrListEnd (c :: r))

def skipMember (item : List Char → Except Fault (List Char)) (s : List Char) :
    Except Fault (List Char) :=
  match skipBlanks s with
  | [] => .error (.next .endOfObject [])
  | '"' :: r => do
    let s ← skipString r
    let s ← colon s
    item s
  | r => .error (.next .nameNotString r)

def skipMembers (item : List Char → Except Fault (List Char)) :
    Nat → Bool → List Char → Except Fault (List Char)
  | 0, _, s => .error (.here .endOfObject s)
  | fuel + 1, first, s =>
    match skipBlanks s with
    | [] => .error (.next .endOfObject [])
    | '\x7d' :: r => .ok r
    | c :: r =>
      if first then do
        let s ← skipMember item (c :: r)
        skipMembers item fuel false s
      else if c = ',' then do
        let s ← skipMember item r
        skipMembers item fuel false s
      else .error (.next .expectedCommaOrObjectEnd (c :: r))

/-- Passes over a value. The fuel bounds the nesting, which each level pays with a character. -/
def skipUpTo (fuel : Nat) (s : List Char) : Except Fault (List Char) :=
  match skipBlanks s with
  | '[' :: r =>
    match fuel with
    | 0 => .error (.next .nestedTooDeep ('[' :: r))
    | fuel + 1 => skipElements (skipUpTo fuel) (r.length + 1) true r
  | '\x7b' :: r =>
    match fuel with
    | 0 => .error (.next .nestedTooDeep ('\x7b' :: r))
    | fuel + 1 => skipMembers (skipUpTo fuel) (r.length + 1) true r
  | r => skipScalar r
termination_by structural fuel

/-- Passes over a value, however deep it is nested. -/
def skip (s : List Char) : Except Fault (List Char) :=
  skipUpTo s.length s

end Json

end LayerGraph
