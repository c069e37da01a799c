import LayerGraph.Proofs.Json.Agreement
import LayerGraph.Proofs.Json.Printer

/-!
# Reading what was printed

The compact text of a value without floating-point numbers is read as that value. What stands
behind the text may only be a comma, a bracket or a brace, or nothing.
-/

namespace LayerGraph

namespace Json

def Ended (rest : List Char) : Prop :=
  ∀ c r, rest = c :: r → c = ',' ∨ c = ']' ∨ c = '\x7d'

theorem ended_nil : Ended [] :=
  nofun

theorem ended_cons {c : Char} (ends : c = ',' ∨ c = ']' ∨ c = '\x7d') (r : List Char) :
    Ended (c :: r) := by
  rintro _ _ ⟨⟩
  exact ends

theorem head_toDigits_ne_zero {n : Nat} (pos : 0 < n) {c : Char} {t : List Char}
    (digits : Nat.toDigits 10 n = c :: t) : c ≠ '0' := by
  induction n using Nat.strong_induction_on generalizing t with
  | _ n ih =>
    rw [Nat.toDigits_eq_if (by decide)] at digits
    split at digits
    · rename_i small
      have nonzero : ∀ m < 10, 0 < m → m.digitChar ≠ '0' := by decide
      cases digits
      exact nonzero n small pos
    · cases high : Nat.toDigits 10 (n / 10) with
      | nil => exact absurd high Nat.toDigits_ne_nil
      | cons d ds =>
        rw [high] at digits
        cases digits
        exact ih (n / 10) (by omega) (by omega) high

theorem toDigits_eq_cons (n : Nat) : ∃ c t, Nat.toDigits 10 n = c :: t ∧ c.isDigit = true := by
  obtain ⟨c, t, digits⟩ := List.exists_cons_of_ne_nil (@Nat.toDigits_ne_nil n 10)
  have first : c ∈ Nat.toDigits 10 n := digits ▸ List.mem_cons_self ..
  exact ⟨c, t, digits, Nat.isDigit_of_mem_toDigits (by decide) (by decide) first⟩

theorem le_ofDigitChars (digits : List Char) (n : Nat) : n ≤ Nat.ofDigitChars 10 digits n := by
  induction digits generalizing n with
  | nil => exact le_rfl
  | cons d digits ih => exact le_trans (by omega) (ih (10 * n + (d.toNat - '0'.toNat)))

theorem appendDigits_eq {limit : Nat} (digits : List Char) {n : Nat}
    (fits : Nat.ofDigitChars 10 digits n ≤ limit) :
    appendDigits limit n digits = (Nat.ofDigitChars 10 digits n, []) := by
  induction digits generalizing n with
  | nil => rfl
  | cons d digits ih =>
    have within := (le_ofDigitChars digits _).trans fits
    rw [appendDigits, digitValue, if_pos within, ih fits]
    rfl

theorem Ended.isDigit {rest : List Char} (ended : Ended rest) :
    rest.head?.any Char.isDigit = false := by
  cases rest with
  | nil => rfl
  | cons c r => rcases ended c r rfl with rfl | rfl | rfl <;> rfl

theorem spanDigits_append {digits rest : List Char} (all : ∀ c ∈ digits, c.isDigit = true)
    (ended : Ended rest) : spanDigits (digits ++ rest) = (digits, rest) := by
  have none : rest.takeWhile Char.isDigit = [] ∧ rest.dropWhile Char.isDigit = rest := by
    cases rest with
    | nil => exact ⟨rfl, rfl⟩
    | cons c r => rcases ended c r rfl with rfl | rfl | rfl <;> exact ⟨rfl, rfl⟩
  rw [spanDigits, List.takeWhile_append_of_pos all, List.dropWhile_append_of_pos all, none.1,
    none.2, List.append_nil]

theorem afterInteger_ended (negative : Bool) (significand : Nat) {rest : List Char}
    (ended : Ended rest) : afterInteger negative significand 0 rest =
      .ok (.ofInteger negative (UInt64.ofNat significand), rest) := by
  cases rest with
  | nil => rfl
  | cons c r => rcases ended c r rfl with rfl | rfl | rfl <;> rfl

theorem number_toDigits (negative : Bool) {n : Nat} (fits : n ≤ maxSignificand)
    {rest : List Char} (ended : Ended rest) :
    number negative (Nat.toDigits 10 n ++ rest) =
      .ok (.ofInteger negative (UInt64.ofNat n), rest) := by
  rcases Nat.eq_zero_or_pos n with rfl | pos
  · change number negative ('0' :: rest) = _
    simp only [number, ended.isDigit, afterInteger_ended negative 0 ended]
    rfl
  · have all : ∀ c ∈ Nat.toDigits 10 n, c.isDigit = true :=
      fun c member => Nat.isDigit_of_mem_toDigits (by decide) (by decide) member
    have span := spanDigits_append all ended
    have appended : appendDigits maxSignificand 0 (Nat.toDigits 10 n) = (n, []) := by
      have value := @Nat.ofDigitChars_toDigits 10 n (by decide) (by decide)
      rw [appendDigits_eq _ (value.trans_le fits), value]
    obtain ⟨c, t, digits, digit⟩ := toDigits_eq_cons n
    have zero := head_toDigits_ne_zero pos digits
    rw [digits] at span appended ⊢
    rw [List.cons_append] at span ⊢
    unfold number
    split
    · simp_all
    · simp_all
    · simp_all [afterInteger_ended]

theorem scalarFrom_unsigned (n : UInt64) {rest : List Char} (ended : Ended rest) :
    ScalarFrom ((Number.unsigned n).text ++ rest) (.number (.unsigned n)) rest := by
  have read := number_toDigits false (Nat.le_of_lt_succ n.toNat_lt) ended
  have same : Number.ofInteger false (UInt64.ofNat n.toNat) = .unsigned n := by
    rw [UInt64.ofNat_toNat]
    rfl
  rw [same] at read
  change ScalarFrom (Nat.toDigits 10 n.toNat ++ rest) _ _
  obtain ⟨c, t, digits, digit⟩ := toDigits_eq_cons n.toNat
  rw [digits] at read ⊢
  exact .number digit read

theorem ofInteger_natAbs {n : Int64} (negative : n < 0) :
    Number.ofInteger true (UInt64.ofNat n.toInt.natAbs) = .signed n := by
  have below : n.toInt < 0 := by simpa using Int64.lt_iff_toInt_lt.mp negative
  have least := n.le_toInt
  have word : (UInt64.ofNat n.toInt.natAbs).toNat = n.toInt.natAbs := by
    rw [UInt64.toNat_ofNat']
    omega
  have value : -(n.toInt.natAbs : Int) = n.toInt := by omega
  have fits : 0 < n.toInt.natAbs ∧ n.toInt.natAbs ≤ 1 <<< 63 := by
    constructor <;> omega
  unfold Number.ofInteger
  rw [word, if_neg (by simp), if_pos (by simpa using fits), value, Int64.ofInt_toInt]

theorem scalarFrom_signed {n : Int64} (negative : n < 0) {rest : List Char} (ended : Ended rest) :
    ScalarFrom ((Number.signed n).text ++ rest) (.number (.signed n)) rest := by
  have below : n.toInt < 0 := by simpa using Int64.lt_iff_toInt_lt.mp negative
  have least := n.le_toInt
  have fits : n.toInt.natAbs ≤ maxSignificand := by
    have bound : maxSignificand = 2 ^ 64 - 1 := rfl
    omega
  have read := number_toDigits true fits ended
  rw [ofInteger_natAbs negative] at read
  rw [Number.text, if_pos negative]
  exact .negative read

theorem hexFour?_control : ∀ n < 32,
    hexFour? '0' '0' (Nat.digitChar (n / 16)) (Nat.digitChar (n % 16)) = some n := by
  decide

theorem escape_control {c : Char} (control : c.toNat < 32) (t : List Char) :
    escape (['u', '0', '0'] ++ hexPair c.toNat ++ t) = .ok (c, t) := by
  have low : isLowSurrogate c.toNat = false := by simp [isLowSurrogate]; omega
  have high : isHighSurrogate c.toNat = false := by simp [isHighSurrogate]; omega
  simp [escape, hexFour, hexPair, hexFour?_control c.toNat control, low, high, Char.ofNat_toNat]

theorem stringFrom_escapedChar {t cs r : List Char} (rest : StringFrom t cs r) (c : Char) :
    StringFrom (escapedChar c ++ t) (c :: cs) r := by
  unfold escapedChar
  split
  · subst_vars
    exact .escaped rfl rest
  split
  · subst_vars
    exact .escaped rfl rest
  split
  · rename_i quote backslash printable
    exact .plain quote backslash (by omega) rest
  split
  · subst_vars
    exact .escaped rfl rest
  split
  · subst_vars
    exact .escaped rfl rest
  split
  · subst_vars
    exact .escaped rfl rest
  split
  · rename_i code
    obtain rfl : c = '\x08' := Char.toNat_inj.mp code
    exact .escaped rfl rest
  split
  · rename_i code
    obtain rfl : c = '\x0c' := Char.toNat_inj.mp code
    exact .escaped rfl rest
  · exact .escaped (escape_control (by omega) t) rest

theorem stringFrom_escaped (cs rest : List Char) :
    StringFrom (cs.flatMap escapedChar ++ '"' :: rest) cs rest := by
  induction cs with
  | nil => exact .close
  | cons c cs ih =>
    rw [List.flatMap_cons, List.append_assoc]
    exact stringFrom_escapedChar ih c

theorem string_escaped (s : String) (rest : List Char) :
    string (s.toList.flatMap escapedChar ++ '"' :: rest) = .ok (s, rest) := by
  simp [string, (stringFrom_escaped s.toList rest).stringChars]

namespace Value

/-- The text starts like the text of a value, not with a blank or the end of a list. -/
def Starts (s : List Char) : Prop :=
  ∃ c t, s = c :: t ∧ isBlank c = false ∧ c ≠ ']'

theorem Starts.append {s : List Char} (starts : Starts s) (rest : List Char) :
    skipBlanks (s ++ rest) = s ++ rest ∧ ∃ c t, s ++ rest = c :: t ∧ c ≠ ']' := by
  obtain ⟨c, t, rfl, blank, bracket⟩ := starts
  exact ⟨List.dropWhile_cons_of_neg (by simp [blank]), c, t ++ rest, rfl, bracket⟩

structure ReadsBack (nesting : Nat) (x : Value) : Prop where
  starts : Starts x.chars
  read : ∀ {rest : List Char}, Ended rest → written nesting (x.chars ++ rest) = .ok (x, rest)

variable {nesting : Nat} {x : Value}

theorem ended_separated {α : Type} (text : α → List Char) (parts : List α) {c : Char}
    (ends : c = ',' ∨ c = ']' ∨ c = '\x7d') (rest : List Char) :
    Ended ((parts.flatMap fun part => ',' :: text part) ++ c :: rest) := by
  cases parts with
  | nil => exact ended_cons ends rest
  | cons part parts => exact ended_cons (.inl rfl) _

theorem length_le_separated {α : Type} (text : α → List Char) (parts : List α) :
    parts.length ≤ (parts.flatMap fun part => ',' :: text part).length := by
  induction parts with
  | nil => exact le_rfl
  | cons part parts ih =>
    rw [List.flatMap_cons, List.length_append, List.length_cons, List.length_cons]
    omega

theorem ReadsBack.elementsFrom {xs : List Value} (each : ∀ x ∈ xs, x.ReadsBack nesting)
    (rest : List Char) : ElementsFrom (written nesting) false
      ((xs.flatMap fun y => ',' :: y.chars) ++ ']' :: rest) xs (']' :: rest) := by
  induction xs with
  | nil => exact .done (nextElement_eq_none_iff.mpr ⟨rest, rfl⟩)
  | cons x xs ih =>
    obtain ⟨back, each⟩ := List.forall_mem_cons.mp each
    have ended := ended_separated chars xs (.inr (.inl rfl)) rest
    obtain ⟨start, starts⟩ := back.starts.append _
    rw [List.flatMap_cons, List.cons_append, List.cons_append, List.append_assoc]
    exact .more (nextElement_eq_some_iff.mpr ⟨.next rfl start, starts⟩) (back.read ended) (ih each)

theorem ReadsBack.array {xs : List Value} (each : ∀ x ∈ xs, x.ReadsBack nesting) :
    (array xs).ReadsBack (nesting + 1) := by
  refine ⟨⟨'[', _, rfl, rfl, by decide⟩, fun {rest} _ => ?_⟩
  rw [chars, List.cons_append, List.append_assoc]
  cases xs with
  | nil =>
    have inner : ElementsFrom (written nesting) true (']' :: rest) [] (']' :: rest) :=
      .done (nextElement_eq_none_iff.mpr ⟨rest, rfl⟩)
    exact written_eq_ok_iff.mpr (.list rfl inner rfl (Nat.zero_le _))
  | cons x xs =>
    obtain ⟨back, each⟩ := List.forall_mem_cons.mp each
    have ended := ended_separated chars xs (.inr (.inl rfl)) rest
    have inner := ReadsBack.elementsFrom each rest
    have short := length_le_separated chars xs
    obtain ⟨start, starts⟩ := back.starts.append _
    rw [elementChars_cons, List.append_assoc]
    refine written_eq_ok_iff.mpr (.list rfl
      (.more (nextElement_eq_some_iff.mpr ⟨.first start, starts⟩) (back.read ended) inner) rfl ?_)
    simp only [List.length_append, List.length_cons] at short ⊢
    omega

theorem pairChars_append (name : String) (x : Value) (t : List Char) :
    pairChars (name, x) ++ t =
      '"' :: (name.toList.flatMap escapedChar ++ '"' :: ':' :: (x.chars ++ t)) := by
  simp [pairChars, stringText]

theorem skipBlanks_pairChars (m : String × Value) (t : List Char) :
    skipBlanks (pairChars m ++ t) = pairChars m ++ t := by
  obtain ⟨name, x⟩ := m
  rw [pairChars_append]
  rfl

theorem ReadsBack.member {name : String} (back : x.ReadsBack nesting) {first : Bool}
    {s t r : List Char} {members : List (String × Value)}
    (start : StartsAt first s (pairChars (name, x) ++ t)) (ended : Ended t)
    (later : MembersFrom (written nesting) false t members r) :
    MembersFrom (written nesting) first s ((name, x) :: members) r := by
  rw [pairChars_append] at start
  exact .more (nextMember_eq_some_iff.mpr start) (string_escaped ..) rfl (back.read ended) later

theorem ReadsBack.membersFrom {members : List (String × Value)}
    (each : ∀ m ∈ members, m.2.ReadsBack nesting) (rest : List Char) :
    MembersFrom (written nesting) false
      ((members.flatMap fun m => ',' :: pairChars m) ++ '\x7d' :: rest) members
      ('\x7d' :: rest) := by
  induction members with
  | nil => exact .done (nextMember_eq_none_iff.mpr ⟨rest, rfl⟩)
  | cons m members ih =>
    obtain ⟨back, each⟩ := List.forall_mem_cons.mp each
    have ended := ended_separated pairChars members (.inr (.inr rfl)) rest
    rw [List.flatMap_cons, List.cons_append, List.cons_append, List.append_assoc]
    exact back.member (.next rfl (skipBlanks_pairChars ..)) ended (ih each)

theorem ReadsBack.object {members : List (String × Value)}
    (each : ∀ m ∈ members, m.2.ReadsBack nesting) : (object members).ReadsBack (nesting + 1) := by
  refine ⟨⟨'\x7b', _, rfl, rfl, by decide⟩, fun {rest} _ => ?_⟩
  rw [chars, List.cons_append, List.append_assoc]
  cases members with
  | nil =>
    have inner : MembersFrom (written nesting) true ('\x7d' :: rest) [] ('\x7d' :: rest) :=
      .done (nextMember_eq_none_iff.mpr ⟨rest, rfl⟩)
    exact written_eq_ok_iff.mpr (.object rfl inner rfl (Nat.zero_le _))
  | cons m members =>
    obtain ⟨back, each⟩ := List.forall_mem_cons.mp each
    have ended := ended_separated pairChars members (.inr (.inr rfl)) rest
    have inner := ReadsBack.membersFrom each rest
    have short := length_le_separated pairChars members
    rw [memberChars_cons, List.append_assoc]
    refine written_eq_ok_iff.mpr (.object rfl
      (back.member (.first (skipBlanks_pairChars ..)) ended inner) rfl ?_)
    simp only [List.length_append, List.length_cons] at short ⊢
    omega

theorem ReadsBack.scalar (starts : Starts x.chars)
    (read : ∀ {rest : List Char}, Ended rest → ScalarFrom (x.chars ++ rest) x rest) :
    x.ReadsBack nesting := by
  refine ⟨starts, fun {rest} ended => written_eq_ok_iff.mpr (.scalar ?_)⟩
  rw [(starts.append rest).1]
  exact read ended

theorem readsBack_unsigned (n : UInt64) : (number (.unsigned n)).ReadsBack nesting := by
  refine .scalar ?_ (scalarFrom_unsigned n)
  obtain ⟨c, t, digits, digit⟩ := toDigits_eq_cons n.toNat
  refine ⟨c, t, digits, Bool.eq_false_iff.mpr fun blank => ?_, ?_⟩
  · simp only [isBlank, Bool.or_eq_true, decide_eq_true_eq] at blank
    rcases blank with ((rfl | rfl) | rfl) | rfl <;> simp at digit
  · rintro rfl
    simp at digit

/-- What fits and holds no floating-point number is read back from its text. -/
theorem Fits.readsBack (fits : x.Fits nesting) (integral : x.Integral) : x.ReadsBack nesting := by
  induction fits with
  | null => exact .scalar ⟨'n', _, rfl, rfl, by decide⟩ fun _ => .null rfl
  | bool b =>
    cases b with
    | false => exact .scalar ⟨'f', _, rfl, rfl, by decide⟩ fun _ => .no rfl
    | true => exact .scalar ⟨'t', _, rfl, rfl, by decide⟩ fun _ => .yes rfl
  | number genuine =>
    cases integral with
    | unsigned n => exact readsBack_unsigned n
    | signed n =>
      refine .scalar ⟨'-', _, if_pos genuine, rfl, by decide⟩ (scalarFrom_signed genuine)
  | string s =>
    refine .scalar ⟨'"', _, rfl, rfl, by decide⟩ fun {rest} _ => ?_
    rw [chars, stringText, List.cons_append, List.append_assoc]
    exact .string (string_escaped s rest)
  | array _ ih =>
    cases integral with
    | array each => exact .array fun x member => ih x member (each x member)
  | object _ ih =>
    cases integral with
    | object each => exact .object fun m member => ih m member (each m member)

theorem Fits.written_text (fits : x.Fits nesting) (integral : x.Integral) :
    written nesting x.text.toList = .ok (x, []) := by
  have chars : x.text.toList = x.chars ++ [] := by simp [Value.text]
  rw [chars]
  exact (fits.readsBack integral).read ended_nil

theorem Fits.decode_text (fits : x.Fits maxNesting) (integral : x.Integral) :
    Decoder.any.decode x.text = .ok x.sorted :=
  Decoder.decode_eq_ok_iff.mpr
    ⟨[], bind_eq_ok_iff.mpr ⟨_, fits.written_text integral, rfl⟩, rfl⟩

theorem Fits.distinctNames (fits : x.Fits maxNesting) (integral : x.Integral)
    (distinct : x.Distinct) : DistinctNames x.text := by
  intro raw r read
  cases (fits.written_text integral).symm.trans read
  exact distinct

end Value

end Json

end LayerGraph
