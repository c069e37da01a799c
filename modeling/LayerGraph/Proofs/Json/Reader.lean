import LayerGraph.Json.Reader
import LayerGraph.Proofs.Except
import LayerGraph.Proofs.Json.Value
import Mathlib.Data.List.TakeWhile

/-!
# How values are read

The readers as relations between a text, what is read and what is left. Reading the parts of a list
or an object takes fuel, the relations do not: the fuel is enough just if it exceeds the number of
parts.
-/

namespace LayerGraph

namespace Json

variable {α : Type} {item : Reader α} {s r : List Char}

theorem skipBlanks_skipBlanks (s : List Char) : skipBlanks (skipBlanks s) = skipBlanks s :=
  List.dropWhile_eq_self_iff.mpr fun left => List.dropWhile_get_zero_not _ _ left

theorem colon_eq_ok_iff : colon s = .ok r ↔ skipBlanks s = ':' :: r := by
  unfold colon
  split <;> simp_all

theorem closeList_eq_ok_iff : closeList s = .ok r ↔ skipBlanks s = ']' :: r := by
  unfold closeList
  split
  · simp_all
  · simp_all
  · split <;> simp_all
  · simp_all

theorem closeObject_eq_ok_iff : closeObject s = .ok r ↔ skipBlanks s = '\x7d' :: r := by
  unfold closeObject
  split <;> simp_all

/-- Where an element or a member starts: right here if it is the first, behind a comma if not. -/
inductive StartsAt : Bool → List Char → List Char → Prop
  | first {s t : List Char} (start : skipBlanks s = t) : StartsAt true s t
  | next {s t u : List Char} (comma : skipBlanks s = ',' :: u) (start : skipBlanks u = t) :
    StartsAt false s t

theorem nextElement_eq_none_iff {first : Bool} :
    nextElement first s = .ok none ↔ ∃ r, skipBlanks s = ']' :: r := by
  unfold nextElement
  split
  · simp_all
  · simp_all
  · split
    · simp_all
    · split
      · split <;> simp_all
      · simp_all

theorem nextElement_eq_some_iff {first : Bool} {t : List Char} :
    nextElement first s = .ok (some t) ↔ StartsAt first s t ∧ ∃ c u, t = c :: u ∧ c ≠ ']' := by
  constructor
  · intro next
    cases start : skipBlanks s with
    | nil => simp [nextElement, start] at next
    | cons c u =>
      by_cases bracket : c = ']'
      · simp [nextElement, start, bracket] at next
      cases first with
      | true =>
        obtain rfl : c :: u = t := by simpa [nextElement, start, bracket] using next
        exact ⟨.first start, c, u, rfl, bracket⟩
      | false =>
        by_cases comma : c = ','
        · subst comma
          cases behind : skipBlanks u with
          | nil => simp [nextElement, start, behind] at next
          | cons d v =>
            by_cases bracket' : d = ']'
            · simp [nextElement, start, behind, bracket'] at next
            · obtain rfl : d :: v = t := by simpa [nextElement, start, behind, bracket'] using next
              exact ⟨.next start behind, d, v, rfl, bracket'⟩
        · simp [nextElement, start, comma] at next
  · rintro ⟨start | ⟨comma, start⟩, c, u, rfl, bracket⟩
    · simp [nextElement, start]
    · simp [nextElement, comma, start, bracket]

theorem nextMember_eq_ok {first : Bool} {found : Option (List Char)}
    (next : nextMember first s = .ok found) :
    found = none ∧ (∃ r, skipBlanks s = '\x7d' :: r) ∨
      ∃ t, found = some t ∧ StartsAt first s ('"' :: t) := by
  cases start : skipBlanks s with
  | nil => simp [nextMember, start] at next
  | cons c u =>
    by_cases brace : c = '\x7d'
    · simp_all [nextMember]
    refine .inr ?_
    cases first with
    | true =>
      by_cases quote : c = '"'
      · subst quote
        obtain rfl : some u = found := by simpa [nextMember, start] using next
        exact ⟨u, rfl, .first start⟩
      · simp [nextMember, start, quote] at next
    | false =>
      by_cases comma : c = ','
      · subst comma
        cases behind : skipBlanks u with
        | nil => simp [nextMember, start, behind] at next
        | cons d v =>
          by_cases quote : d = '"'
          · subst quote
            obtain rfl : some v = found := by simpa [nextMember, start, behind] using next
            exact ⟨v, rfl, .next start behind⟩
          · by_cases brace' : d = '\x7d' <;>
              simp [nextMember, start, behind, brace', quote] at next
      · simp [nextMember, start, comma] at next

theorem nextMember_eq_none_iff {first : Bool} :
    nextMember first s = .ok none ↔ ∃ r, skipBlanks s = '\x7d' :: r := by
  refine ⟨fun next => ?_, fun ⟨r, start⟩ => by simp [nextMember, start]⟩
  rcases nextMember_eq_ok next with ⟨-, close⟩ | ⟨t, some, -⟩
  · exact close
  · cases some

theorem nextMember_eq_some_iff {first : Bool} {t : List Char} :
    nextMember first s = .ok (some t) ↔ StartsAt first s ('"' :: t) := by
  constructor
  · intro next
    rcases nextMember_eq_ok next with ⟨none, -⟩ | ⟨_, same, start⟩
    · cases none
    · cases same
      exact start
  · rintro (start | ⟨comma, start⟩)
    · simp [nextMember, start]
    · simp [nextMember, comma, start]

inductive StringFrom : List Char → List Char → List Char → Prop
  | close {r : List Char} : StringFrom ('"' :: r) [] r
  | escaped {t t' cs r : List Char} {c : Char} (read : escape t = .ok (c, t'))
    (rest : StringFrom t' cs r) : StringFrom ('\\' :: t) (c :: cs) r
  | plain {c : Char} {t cs r : List Char} (quote : c ≠ '"') (backslash : c ≠ '\\')
    (control : ¬ c.toNat < 32) (rest : StringFrom t cs r) : StringFrom (c :: t) (c :: cs) r

theorem StringFrom.stringChars {cs : List Char} (read : StringFrom s cs r) :
    stringChars s = .ok (cs, r) := by
  induction read with
  | close => rw [Json.stringChars]
  | escaped read _ ih =>
    rw [Json.stringChars]
    split <;> simp_all
  | plain quote backslash control _ ih =>
    rw [Json.stringChars, if_neg control, ih]
    · exact quote
    · exact backslash

theorem stringChars_eq_ok_iff {cs : List Char} :
    stringChars s = .ok (cs, r) ↔ StringFrom s cs r := by
  refine ⟨fun read => ?_, StringFrom.stringChars⟩
  fun_induction stringChars s generalizing cs with
  | case1 => cases read
  | case2 =>
    cases read
    exact .close
  | case3 => cases read
  | case4 => cases read
  | case5 t c t' first _ cs' r' later ih =>
    cases read
    exact .escaped first (ih later)
  | case6 => cases read
  | case7 => cases read
  | case8 c t quote backslash control cs' r' later ih =>
    cases read
    exact .plain quote backslash control (ih later)

inductive ElementsFrom (item : Reader α) : Bool → List Char → List α → List Char → Prop
  | done {first : Bool} {s : List Char} (next : nextElement first s = .ok none) :
    ElementsFrom item first s [] s
  | more {first : Bool} {s t t' r : List Char} {x : α} {xs : List α}
    (next : nextElement first s = .ok (some t)) (read : item t = .ok (x, t'))
    (rest : ElementsFrom item false t' xs r) : ElementsFrom item first s (x :: xs) r

inductive MembersFrom (item : Reader α) :
    Bool → List Char → List (String × α) → List Char → Prop
  | done {first : Bool} {s : List Char} (next : nextMember first s = .ok none) :
    MembersFrom item first s [] s
  | more {first : Bool} {s t t' t'' u r : List Char} {name : String} {x : α}
    {members : List (String × α)} (next : nextMember first s = .ok (some t))
    (named : string t = .ok (name, t')) (sep : colon t' = .ok t'')
    (read : item t'' = .ok (x, u)) (rest : MembersFrom item false u members r) :
    MembersFrom item first s ((name, x) :: members) r

theorem ElementsFrom.elementsUpTo {first : Bool} {xs : List α}
    (elements : ElementsFrom item first s xs r) {fuel : Nat} (enough : xs.length < fuel) :
    elementsUpTo item fuel first s = .ok (xs, r) := by
  induction elements generalizing fuel with
  | done next =>
    obtain ⟨fuel, rfl⟩ := Nat.exists_eq_add_one.mpr enough
    rw [Json.elementsUpTo, next]
    rfl
  | more next read _ ih =>
    obtain ⟨fuel, rfl⟩ := Nat.exists_eq_add_one.mpr (Nat.zero_lt_of_lt enough)
    simp only [Json.elementsUpTo, next, read, ih (Nat.lt_of_succ_lt_succ enough), ok_bind,
      pure_eq_ok]

theorem elementsUpTo_eq_ok_iff {fuel : Nat} {first : Bool} {xs : List α} :
    elementsUpTo item fuel first s = .ok (xs, r) ↔
      xs.length < fuel ∧ ElementsFrom item first s xs r := by
  refine ⟨fun read => ?_, fun ⟨enough, elements⟩ => elements.elementsUpTo enough⟩
  induction fuel generalizing first s xs with
  | zero => simp [elementsUpTo] at read
  | succ fuel ih =>
    obtain ⟨found, next, read⟩ := bind_eq_ok_iff.mp read
    cases found with
    | none =>
      cases read
      exact ⟨Nat.succ_pos _, .done next⟩
    | some t =>
      obtain ⟨⟨x, t'⟩, first, read⟩ := bind_eq_ok_iff.mp read
      obtain ⟨⟨rest, _⟩, later, read⟩ := bind_eq_ok_iff.mp read
      cases read
      obtain ⟨enough, rest⟩ := ih later
      exact ⟨Nat.succ_lt_succ enough, .more next first rest⟩

theorem MembersFrom.membersUpTo {first : Bool} {pairs : List (String × α)}
    (members : MembersFrom item first s pairs r) {fuel : Nat} (enough : pairs.length < fuel) :
    membersUpTo item fuel first s = .ok (pairs, r) := by
  induction members generalizing fuel with
  | done next =>
    obtain ⟨fuel, rfl⟩ := Nat.exists_eq_add_one.mpr enough
    rw [Json.membersUpTo, next]
    rfl
  | more next named sep read _ ih =>
    obtain ⟨fuel, rfl⟩ := Nat.exists_eq_add_one.mpr (Nat.zero_lt_of_lt enough)
    simp only [Json.membersUpTo, next, named, sep, read, ih (Nat.lt_of_succ_lt_succ enough),
      ok_bind, pure_eq_ok]

theorem membersUpTo_eq_ok_iff {fuel : Nat} {first : Bool} {pairs : List (String × α)} :
    membersUpTo item fuel first s = .ok (pairs, r) ↔
      pairs.length < fuel ∧ MembersFrom item first s pairs r := by
  refine ⟨fun read => ?_, fun ⟨enough, members⟩ => members.membersUpTo enough⟩
  induction fuel generalizing first s pairs with
  | zero => simp [membersUpTo] at read
  | succ fuel ih =>
    obtain ⟨found, next, read⟩ := bind_eq_ok_iff.mp read
    cases found with
    | none =>
      cases read
      exact ⟨Nat.succ_pos _, .done next⟩
    | some t =>
      obtain ⟨⟨name, t'⟩, named, read⟩ := bind_eq_ok_iff.mp read
      obtain ⟨t'', sep, read⟩ := bind_eq_ok_iff.mp read
      obtain ⟨⟨x, u⟩, first, read⟩ := bind_eq_ok_iff.mp read
      obtain ⟨⟨rest, _⟩, later, read⟩ := bind_eq_ok_iff.mp read
      cases read
      obtain ⟨enough, rest⟩ := ih later
      exact ⟨Nat.succ_lt_succ enough, .more next named sep first rest⟩

theorem closeList_ne_ok {first : Bool} {t : List Char}
    (next : nextElement first s = .ok (some t)) : closeList s ≠ .ok r := by
  intro close
  have none := @nextElement_eq_none_iff s first |>.mpr ⟨r, closeList_eq_ok_iff.mp close⟩
  rw [next] at none
  cases none

theorem elements_eq_ok_iff {xs : List α} : elements item s = .ok (xs, r) ↔
    ∃ t, ElementsFrom item true s xs t ∧ closeList t = .ok r ∧ xs.length ≤ s.length := by
  simp only [elements, bind_eq_ok_iff, Prod.exists, elementsUpTo_eq_ok_iff, pure_eq_ok,
    Except.ok.injEq, Prod.mk.injEq, Nat.lt_succ_iff]
  constructor
  · rintro ⟨_, t, ⟨short, elements⟩, _, close, rfl, rfl⟩
    exact ⟨t, elements, close, short⟩
  · rintro ⟨t, elements, close, short⟩
    exact ⟨xs, t, ⟨short, elements⟩, r, close, rfl, rfl⟩

theorem members_eq_ok_iff {pairs : List (String × α)} : members item s = .ok (pairs, r) ↔
    ∃ t, MembersFrom item true s pairs t ∧ closeObject t = .ok r ∧ pairs.length ≤ s.length := by
  simp only [members, bind_eq_ok_iff, Prod.exists, membersUpTo_eq_ok_iff, pure_eq_ok,
    Except.ok.injEq, Prod.mk.injEq, Nat.lt_succ_iff]
  constructor
  · rintro ⟨_, t, ⟨short, members⟩, _, close, rfl, rfl⟩
    exact ⟨t, members, close, short⟩
  · rintro ⟨t, members, close, short⟩
    exact ⟨pairs, t, ⟨short, members⟩, r, close, rfl, rfl⟩

theorem ElementsFrom.forall {P : α → Prop} {first : Bool} {xs : List α}
    (elements : ElementsFrom item first s xs r)
    (each : ∀ t x t', item t = .ok (x, t') → P x) : ∀ x ∈ xs, P x := by
  induction elements with
  | done => exact fun x member => absurd member List.not_mem_nil
  | more _ read _ ih => exact List.forall_mem_cons.mpr ⟨each _ _ _ read, ih⟩

theorem MembersFrom.forall {P : α → Prop} {first : Bool} {pairs : List (String × α)}
    (members : MembersFrom item first s pairs r)
    (each : ∀ t x t', item t = .ok (x, t') → P x) : ∀ m ∈ pairs, P m.2 := by
  induction members with
  | done => exact fun m member => absurd member List.not_mem_nil
  | more _ _ _ read _ ih => exact List.forall_mem_cons.mpr ⟨each _ _ _ read, ih⟩

inductive ScalarFrom : List Char → Value → List Char → Prop
  | null {t r : List Char} (spelled : word ['u', 'l', 'l'] t = .ok r) :
    ScalarFrom ('n' :: t) .null r
  | yes {t r : List Char} (spelled : word ['r', 'u', 'e'] t = .ok r) :
    ScalarFrom ('t' :: t) (.bool true) r
  | no {t r : List Char} (spelled : word ['a', 'l', 's', 'e'] t = .ok r) :
    ScalarFrom ('f' :: t) (.bool false) r
  | string {t r : List Char} {text : String} (read : string t = .ok (text, r)) :
    ScalarFrom ('"' :: t) (.string text) r
  | negative {t r : List Char} {n : Number} (read : number true t = .ok (n, r)) :
    ScalarFrom ('-' :: t) (.number n) r
  | number {c : Char} {t r : List Char} {n : Number} (digit : c.isDigit)
    (read : number false (c :: t) = .ok (n, r)) : ScalarFrom (c :: t) (.number n) r

theorem scalar_eq_ok_iff {x : Value} : scalar s = .ok (x, r) ↔ ScalarFrom s x r := by
  constructor
  · intro read
    unfold scalar at read
    split at read
    · cases read
    · obtain ⟨_, spelled, read⟩ := bind_eq_ok_iff.mp read
      cases read
      exact .null spelled
    · obtain ⟨_, spelled, read⟩ := bind_eq_ok_iff.mp read
      cases read
      exact .yes spelled
    · obtain ⟨_, spelled, read⟩ := bind_eq_ok_iff.mp read
      cases read
      exact .no spelled
    · obtain ⟨_, inner, read⟩ := bind_eq_ok_iff.mp read
      cases read
      exact .string inner
    · obtain ⟨_, inner, read⟩ := bind_eq_ok_iff.mp read
      cases read
      exact .negative inner
    · split at read
      · rename_i digit
        obtain ⟨_, inner, read⟩ := bind_eq_ok_iff.mp read
        cases read
        exact .number digit inner
      · cases read
  · rintro (spelled | spelled | spelled | read | read | ⟨digit, read⟩)
    · simp [scalar, spelled]
    · simp [scalar, spelled]
    · simp [scalar, spelled]
    · simp [scalar, read]
    · simp [scalar, read]
    · unfold scalar
      split <;> simp_all

/-- A value as it is written, with at most so many levels of lists and objects. -/
inductive WrittenFrom : Nat → List Char → Value → List Char → Prop
  | list {nesting : Nat} {s t t' r : List Char} {xs : List Value} (start : skipBlanks s = '[' :: t)
    (inner : ElementsFrom (written nesting) true t xs t') (close : closeList t' = .ok r)
    (short : xs.length ≤ t.length) : WrittenFrom (nesting + 1) s (.array xs) r
  | object {nesting : Nat} {s t t' r : List Char} {members : List (String × Value)}
    (start : skipBlanks s = '\x7b' :: t) (inner : MembersFrom (written nesting) true t members t')
    (close : closeObject t' = .ok r) (short : members.length ≤ t.length) :
    WrittenFrom (nesting + 1) s (.object members) r
  | scalar {nesting : Nat} {s r : List Char} {x : Value} (read : ScalarFrom (skipBlanks s) x r) :
    WrittenFrom nesting s x r

theorem ScalarFrom.plain {x : Value} (read : ScalarFrom s x r) : x.Plain := by
  cases read with
  | null => exact .null
  | yes | no => exact .bool _
  | string => exact .string _
  | negative | number => exact .number _

theorem ScalarFrom.ne_bracket {t : List Char} {x : Value} : ¬ ScalarFrom ('[' :: t) x r := by
  rintro (_ | _ | _ | _ | _ | ⟨digit, _⟩)
  simp at digit

theorem ScalarFrom.ne_brace {t : List Char} {x : Value} : ¬ ScalarFrom ('\x7b' :: t) x r := by
  rintro (_ | _ | _ | _ | _ | ⟨digit, _⟩)
  simp at digit

theorem written_eq_ok_iff {nesting : Nat} {x : Value} :
    written nesting s = .ok (x, r) ↔ WrittenFrom nesting s x r := by
  constructor
  · intro read
    unfold written at read
    split at read
    · rename_i start
      cases nesting with
      | zero => cases read
      | succ nesting =>
        obtain ⟨⟨xs, _⟩, inner, read⟩ := bind_eq_ok_iff.mp read
        cases read
        obtain ⟨t', inner, close, short⟩ := elements_eq_ok_iff.mp inner
        exact .list start inner close short
    · rename_i start
      cases nesting with
      | zero => cases read
      | succ nesting =>
        obtain ⟨⟨pairs, _⟩, inner, read⟩ := bind_eq_ok_iff.mp read
        cases read
        obtain ⟨t', inner, close, short⟩ := members_eq_ok_iff.mp inner
        exact .object start inner close short
    · exact .scalar (scalar_eq_ok_iff.mp read)
  · rintro (⟨start, inner, close, short⟩ | ⟨start, inner, close, short⟩ | read)
    · have inner := elements_eq_ok_iff.mpr ⟨_, inner, close, short⟩
      simp only [written, start, inner, ok_bind, pure_eq_ok]
    · have inner := members_eq_ok_iff.mpr ⟨_, inner, close, short⟩
      simp only [written, start, inner, ok_bind, pure_eq_ok]
    · unfold written
      split
      · rename_i start
        exact absurd (start ▸ read) ScalarFrom.ne_bracket
      · rename_i start
        exact absurd (start ▸ read) ScalarFrom.ne_brace
      · exact scalar_eq_ok_iff.mpr read

theorem written_skipBlanks (nesting : Nat) (s : List Char) :
    written nesting (skipBlanks s) = written nesting s := by
  unfold written
  rw [skipBlanks_skipBlanks]

theorem null_of_written {nesting : Nat} {t : List Char} {x : Value}
    (read : written nesting ('n' :: t) = .ok (x, r)) :
    x = .null ∧ word ['u', 'l', 'l'] t = .ok r := by
  cases written_eq_ok_iff.mp read with
  | list start => simp [skipBlanks, isBlank] at start
  | object start => simp [skipBlanks, isBlank] at start
  | scalar read =>
    have start : skipBlanks ('n' :: t) = 'n' :: t := rfl
    rw [start] at read
    cases read with
    | null spelled => exact ⟨rfl, spelled⟩
    | number digit => simp at digit

theorem start_of_written_null {nesting : Nat} (read : written nesting s = .ok (.null, r)) :
    ∃ t, skipBlanks s = 'n' :: t := by
  cases written_eq_ok_iff.mp read with
  | scalar read =>
    generalize skipBlanks s = u at read
    cases read with
    | null => exact ⟨_, rfl⟩

theorem MembersFrom.map_sorted {nesting : Nat} {first : Bool} {pairs : List (String × Value)}
    (members : MembersFrom (written nesting) first s pairs r) :
    MembersFrom (value nesting) first s (pairs.map Value.sortedMember) r := by
  induction members with
  | done next => exact .done next
  | more next named sep read _ ih =>
    rw [List.map_cons, Value.sortedMember_eq]
    exact .more next named sep (by simp [value, read]) ih

end Json

end LayerGraph
