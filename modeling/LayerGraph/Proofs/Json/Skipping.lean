import LayerGraph.Proofs.Json.Reader

/-!
# Passing over what can be read

A value that can be read can also be passed over, and the same is left of the text. Passing over
looks at less: it does not pair surrogates, it takes numbers of any size, and it counts no levels.
-/

namespace LayerGraph

namespace Json

variable {s r : List Char}

theorem skipString_escape {t : List Char} (skipped : skipEscape s = .ok t) :
    skipString ('\\' :: s) = skipString t := by
  rw [skipString]
  split <;> simp_all

theorem skipEscape_unicode {n : Nat} (digits : hexFour s = .ok (n, r)) :
    skipEscape ('u' :: s) = .ok r := by
  rw [skipEscape, digits]
  rfl

/-- What passes over a string takes the second half of a surrogate pair for an escape of its own. -/
theorem skipString_of_secondSurrogate {high : Nat} {c : Char}
    (read : secondSurrogate high s = .ok (c, r)) : skipString s = skipString r := by
  unfold secondSurrogate at read
  split at read
  · cases read
  · cases read
  · split at read
    · cases read
    · rename_i digits
      split at read
      · obtain ⟨-, rfl⟩ := Prod.mk.inj (Except.ok.inj read)
        exact skipString_escape (skipEscape_unicode digits)
      · cases read
  · cases read
  · cases read

theorem skipString_of_escape {c : Char} (read : escape s = .ok (c, r)) :
    skipString ('\\' :: s) = skipString r := by
  unfold escape at read
  split at read
  · cases read
  · split at read
    · cases read
    · rename_i digits
      rw [skipString_escape (skipEscape_unicode digits)]
      split at read
      · cases read
      · split at read
        · exact skipString_of_secondSurrogate read
        · cases read
          rfl
  · rename_i letter t notUnicode
    split at read
    · rename_i found
      cases read
      refine skipString_escape ?_
      rw [skipEscape, found]
      · rfl
      · exact notUnicode
    · cases read

theorem StringFrom.skipString {cs : List Char} (read : StringFrom s cs r) :
    skipString s = .ok r := by
  induction read with
  | close => rw [Json.skipString]
  | escaped read _ ih => rw [skipString_of_escape read, ih]
  | plain quote backslash control _ ih =>
    rw [Json.skipString, if_neg control, ih]
    · exact quote
    · exact backslash

theorem skipString_of_string {text : String} (read : string s = .ok (text, r)) :
    skipString s = .ok r := by
  unfold string at read
  split at read
  · cases read
  · rename_i chars
    cases read
    exact (stringChars_eq_ok_iff.mp chars).skipString

def skipAfterFraction (s : List Char) : Except Fault (List Char) :=
  match s with
  | 'e' :: r | 'E' :: r => skipExponent r
  | _ => .ok s

def skipAfterInteger (s : List Char) : Except Fault (List Char) :=
  match s with
  | '.' :: r =>
    match spanDigits r with
    | ([], _) => .error (.next .invalidNumber r)
    | (_, r) => skipAfterFraction r
  | _ => skipAfterFraction s

theorem skipNumber_eq (s : List Char) : skipNumber s =
    match s with
    | '0' :: r =>
      if r.head?.any Char.isDigit then .error (.next .invalidNumber r) else skipAfterInteger r
    | _ =>
      match spanDigits s with
      | ([], _) => .error (.next .invalidNumber s)
      | (_, r) => skipAfterInteger r :=
  rfl

theorem eq_of_floatNumber {negative : Bool} {significand : Nat} {exponent : Int} {n : Number}
    (read : floatNumber negative significand exponent s = .ok (n, r)) : s = r := by
  unfold floatNumber at read
  split at read
  · cases read
    rfl
  · cases read

def behindSign (s : List Char) : List Char :=
  match s with
  | '+' :: r | '-' :: r => r
  | _ => s

theorem skipExponent_eq (s : List Char) : skipExponent s =
    match spanDigits (behindSign s) with
    | ([], _) => .error (.next .invalidNumber (behindSign s))
    | (_, r) => .ok r :=
  rfl

theorem skipExponent_of_exponentPart {negative : Bool} {significand : Nat} {places : Int}
    {n : Number} (read : exponentPart negative significand places s = .ok (n, r)) :
    skipExponent s = .ok r := by
  unfold exponentPart at read
  split at read
  rename_i down t sign
  have behind : behindSign s = t := by
    split at sign <;> simp_all [behindSign]
  split at read
  · cases read
  · rename_i digits t' nonempty span
    simp only [skipExponent_eq, behind, span]
    split at read
    · rw [eq_of_floatNumber read]
    · split at read
      · cases read
      · cases read
        rfl

theorem skipAfterFraction_self (small : ∀ t, s ≠ 'e' :: t) (great : ∀ t, s ≠ 'E' :: t) :
    skipAfterFraction s = .ok s := by
  unfold skipAfterFraction
  split
  · exact absurd rfl (small _)
  · exact absurd rfl (great _)
  · rfl

theorem skipAfterInteger_point {digits : List Char} (span : spanDigits s = (digits, r))
    (nonempty : digits ≠ []) : skipAfterInteger ('.' :: s) = skipAfterFraction r := by
  simp only [skipAfterInteger, span]

theorem skipAfterInteger_of_fractionPart {negative : Bool} {significand : Nat} {places : Int}
    {n : Number} (read : fractionPart negative significand places s = .ok (n, r)) :
    skipAfterInteger ('.' :: s) = .ok r := by
  unfold fractionPart at read
  split at read
  · cases read
  · rename_i digits t nonempty span
    rw [skipAfterInteger_point span nonempty]
    split at read
    split at read
    · exact skipExponent_of_exponentPart read
    · exact skipExponent_of_exponentPart read
    · rename_i small great
      rw [skipAfterFraction_self small great, eq_of_floatNumber read]

theorem skipAfterInteger_of_afterInteger {negative : Bool} {significand dropped : Nat}
    {n : Number} (read : afterInteger negative significand dropped s = .ok (n, r)) :
    skipAfterInteger s = .ok r := by
  unfold afterInteger at read
  split at read
  · exact skipAfterInteger_of_fractionPart read
  · exact skipExponent_of_exponentPart read
  · exact skipExponent_of_exponentPart read
  · rename_i point small great
    have same : s = r := by
      split at read
      · cases read
        rfl
      · exact eq_of_floatNumber read
    rw [skipAfterInteger]
    · rw [skipAfterFraction_self small great, same]
    · exact point

theorem skipNumber_of_number {negative : Bool} {n : Number}
    (read : number negative s = .ok (n, r)) : skipNumber s = .ok r := by
  unfold number at read
  split at read
  · cases read
  · split at read
    · cases read
    · rename_i digits
      simp only [skipNumber_eq, if_neg digits, skipAfterInteger_of_afterInteger read]
  · rename_i c t zero
    split at read
    · rename_i digit
      have skipped := skipAfterInteger_of_afterInteger read
      rw [skipNumber_eq]
      split
      · simp_all
      · simp only [spanDigits, List.takeWhile_cons, digit] at skipped ⊢
        exact skipped
    · cases read

theorem ScalarFrom.skipScalar {x : Value} (read : ScalarFrom s x r) : skipScalar s = .ok r := by
  rcases read with spelled | spelled | spelled | read | read | ⟨digit, read⟩
  · exact spelled
  · exact spelled
  · exact spelled
  · exact skipString_of_string read
  · exact skipNumber_of_number read
  · have skipped := skipNumber_of_number read
    unfold Json.skipScalar
    split <;> simp_all

theorem length_le_of_word {w : List Char} (spelled : word w s = .ok r) : r.length ≤ s.length := by
  fun_induction word w s with
  | case1 => simp_all
  | case2 => simp_all
  | case3 => simp_all; omega
  | case4 => simp_all

theorem length_le_of_skipString (skipped : skipString s = .ok r) : r.length ≤ s.length := by
  fun_induction skipString s with
  | case1 => cases skipped
  | case2 => simp_all
  | case3 => cases skipped
  | case4 => simp_all; omega
  | case5 => simp_all
  | case6 => simp_all; omega

theorem length_le_of_spanDigits {digits : List Char} (span : spanDigits s = (digits, r)) :
    r.length ≤ s.length := by
  obtain ⟨-, rfl⟩ := Prod.mk.inj span
  exact List.length_dropWhile_le ..

theorem length_behindSign_le (s : List Char) : (behindSign s).length ≤ s.length := by
  unfold behindSign
  split <;> simp

theorem length_le_of_skipExponent (skipped : skipExponent s = .ok r) : r.length ≤ s.length := by
  have behind := length_behindSign_le s
  rw [skipExponent_eq] at skipped
  split at skipped
  · cases skipped
  · rename_i span
    cases skipped
    exact (length_le_of_spanDigits span).trans behind

theorem length_le_of_skipAfterFraction (skipped : skipAfterFraction s = .ok r) :
    r.length ≤ s.length := by
  unfold skipAfterFraction at skipped
  split at skipped
  · exact Nat.le_succ_of_le (length_le_of_skipExponent skipped)
  · exact Nat.le_succ_of_le (length_le_of_skipExponent skipped)
  · cases skipped
    rfl

theorem length_le_of_skipAfterInteger (skipped : skipAfterInteger s = .ok r) :
    r.length ≤ s.length := by
  unfold skipAfterInteger at skipped
  split at skipped
  · split at skipped
    · cases skipped
    · rename_i span
      have := length_le_of_spanDigits span
      have := length_le_of_skipAfterFraction skipped
      rw [List.length_cons]
      omega
  · exact length_le_of_skipAfterFraction skipped

theorem length_le_of_skipNumber (skipped : skipNumber s = .ok r) : r.length ≤ s.length := by
  rw [skipNumber_eq] at skipped
  split at skipped
  · split at skipped
    · cases skipped
    · exact Nat.le_succ_of_le (length_le_of_skipAfterInteger skipped)
  · split at skipped
    · cases skipped
    · rename_i span
      exact (length_le_of_skipAfterInteger skipped).trans (length_le_of_spanDigits span)

theorem ScalarFrom.length_le {x : Value} (read : ScalarFrom s x r) : r.length ≤ s.length := by
  rcases read with spelled | spelled | spelled | read | read | ⟨-, read⟩
  · exact Nat.le_succ_of_le (length_le_of_word spelled)
  · exact Nat.le_succ_of_le (length_le_of_word spelled)
  · exact Nat.le_succ_of_le (length_le_of_word spelled)
  · exact Nat.le_succ_of_le (length_le_of_skipString (skipString_of_string read))
  · exact Nat.le_succ_of_le (length_le_of_skipNumber (skipNumber_of_number read))
  · exact length_le_of_skipNumber (skipNumber_of_number read)

theorem length_le_of_skipBlanks {t : List Char} (start : skipBlanks s = t) :
    t.length ≤ s.length :=
  start ▸ List.length_dropWhile_le ..

/-- Where a value that starts within some length is read, it is passed over. -/
def Passes (length : Nat) (item : Reader Value) (pass : List Char → Except Fault (List Char)) :
    Prop :=
  ∀ s x r, s.length ≤ length → item s = .ok (x, r) → pass s = .ok r ∧ r.length ≤ s.length

variable {nesting length : Nat} {pass : List Char → Except Fault (List Char)}

theorem Passes.skipElements (passes : Passes length (written nesting) pass) {first : Bool}
    {t : List Char} {xs : List Value} (elements : ElementsFrom (written nesting) first s xs t)
    (close : closeList t = .ok r) (short : s.length ≤ length) {fuel : Nat}
    (enough : xs.length < fuel) :
    skipElements pass fuel first s = .ok r ∧ r.length ≤ s.length := by
  rw [closeList_eq_ok_iff] at close
  induction elements generalizing fuel with
  | done =>
    obtain ⟨fuel, rfl⟩ := Nat.exists_eq_add_one.mpr enough
    have := length_le_of_skipBlanks close
    rw [List.length_cons] at this
    exact ⟨by simp [Json.skipElements, close], by omega⟩
  | more next read _ ih =>
    obtain ⟨fuel, rfl⟩ := Nat.exists_eq_add_one.mpr (Nat.zero_lt_of_lt enough)
    obtain ⟨start, c, u, rfl, bracket⟩ := nextElement_eq_some_iff.mp next
    rcases start with start | ⟨comma, start⟩
    · have within := length_le_of_skipBlanks start
      obtain ⟨passed, left⟩ := passes _ _ _ (within.trans short) read
      obtain ⟨later, left'⟩ := ih close (by omega) (Nat.lt_of_succ_lt_succ enough)
      exact ⟨by simp [Json.skipElements, start, passed, later], by omega⟩
    · rw [← start, written_skipBlanks] at read
      have within := length_le_of_skipBlanks comma
      rw [List.length_cons] at within
      obtain ⟨passed, left⟩ := passes _ _ _ (by omega) read
      obtain ⟨later, left'⟩ := ih close (by omega) (Nat.lt_of_succ_lt_succ enough)
      exact ⟨by simp [Json.skipElements, comma, passed, later], by omega⟩

theorem Passes.skipMember (passes : Passes length (written nesting) pass) {name : String}
    {x : Value} {t t' t'' : List Char} (start : skipBlanks s = '"' :: t)
    (named : string t = .ok (name, t')) (sep : colon t' = .ok t'')
    (read : written nesting t'' = .ok (x, r)) (short : s.length ≤ length) :
    skipMember pass s = .ok r ∧ r.length ≤ s.length := by
  have skipped := skipString_of_string named
  have behindName := length_le_of_skipString skipped
  have behindColon := length_le_of_skipBlanks (colon_eq_ok_iff.mp sep)
  have within := length_le_of_skipBlanks start
  rw [List.length_cons] at behindColon within
  obtain ⟨passed, left⟩ := passes _ _ _ (by omega) read
  exact ⟨by simp [Json.skipMember, start, skipped, sep, passed], by omega⟩

theorem Passes.skipMembers (passes : Passes length (written nesting) pass) {first : Bool}
    {t : List Char} {pairs : List (String × Value)}
    (members : MembersFrom (written nesting) first s pairs t) (close : closeObject t = .ok r)
    (short : s.length ≤ length) {fuel : Nat} (enough : pairs.length < fuel) :
    skipMembers pass fuel first s = .ok r ∧ r.length ≤ s.length := by
  rw [closeObject_eq_ok_iff] at close
  induction members generalizing fuel with
  | done =>
    obtain ⟨fuel, rfl⟩ := Nat.exists_eq_add_one.mpr enough
    have := length_le_of_skipBlanks close
    rw [List.length_cons] at this
    exact ⟨by simp [Json.skipMembers, close], by omega⟩
  | more next named sep read _ ih =>
    obtain ⟨fuel, rfl⟩ := Nat.exists_eq_add_one.mpr (Nat.zero_lt_of_lt enough)
    rcases nextMember_eq_some_iff.mp next with start | ⟨comma, start⟩
    · have within := length_le_of_skipBlanks start
      have again := (start ▸ skipBlanks_skipBlanks _ : skipBlanks ('"' :: _) = '"' :: _)
      obtain ⟨passed, left⟩ := passes.skipMember again named sep read (within.trans short)
      obtain ⟨later, left'⟩ := ih close (by omega) (Nat.lt_of_succ_lt_succ enough)
      exact ⟨by simp [Json.skipMembers, start, passed, later], by omega⟩
    · have within := length_le_of_skipBlanks comma
      rw [List.length_cons] at within
      obtain ⟨passed, left⟩ := passes.skipMember start named sep read (by omega)
      obtain ⟨later, left'⟩ := ih close (by omega) (Nat.lt_of_succ_lt_succ enough)
      exact ⟨by simp [Json.skipMembers, comma, passed, later], by omega⟩

theorem ScalarFrom.skipUpTo {x : Value} (read : ScalarFrom (skipBlanks s) x r) (fuel : Nat) :
    skipUpTo fuel s = .ok r ∧ r.length ≤ s.length := by
  refine ⟨?_, read.length_le.trans (length_le_of_skipBlanks rfl)⟩
  unfold Json.skipUpTo
  split
  · rename_i start
    exact absurd (start ▸ read) ScalarFrom.ne_bracket
  · rename_i start
    exact absurd (start ▸ read) ScalarFrom.ne_brace
  · exact read.skipScalar

theorem passes_written (nesting length : Nat) :
    Passes length (written nesting) (skipUpTo length) := by
  -- The levels that reading counts carry the induction; passing over pays for them in characters.
  induction nesting generalizing length with
  | zero =>
    intro s x r _ read
    cases written_eq_ok_iff.mp read with
    | scalar read => exact read.skipUpTo length
  | succ nesting ih =>
    intro s x r short read
    cases written_eq_ok_iff.mp read with
    | scalar read => exact read.skipUpTo length
    | list start inner close enough =>
      have within := length_le_of_skipBlanks start
      rw [List.length_cons] at within
      obtain ⟨length, rfl⟩ := Nat.exists_eq_add_one.mpr (show 0 < length by omega)
      obtain ⟨passed, left⟩ :=
        (ih length).skipElements inner close (by omega) (Nat.lt_succ_of_le enough)
      exact ⟨by simp only [skipUpTo, start, passed], by omega⟩
    | object start inner close enough =>
      have within := length_le_of_skipBlanks start
      rw [List.length_cons] at within
      obtain ⟨length, rfl⟩ := Nat.exists_eq_add_one.mpr (show 0 < length by omega)
      obtain ⟨passed, left⟩ :=
        (ih length).skipMembers inner close (by omega) (Nat.lt_succ_of_le enough)
      exact ⟨by simp only [skipUpTo, start, passed], by omega⟩

/-- A value that can be read is passed over up to where reading it ends. -/
theorem skip_of_written {x : Value} (read : written nesting s = .ok (x, r)) : skip s = .ok r :=
  (passes_written nesting s.length s x r le_rfl read).1

end Json

end LayerGraph
