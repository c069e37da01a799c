import LayerGraph.Json.Printer
import LayerGraph.Proofs.Json.Value

/-!
# Printed values stand on one line

The compact text of a value has no control character, whatever the strings in it: those that need
it are escaped, and nothing else that is printed holds one.
-/

namespace LayerGraph

/-- No character of the text is below the blank. -/
def Text.Unbroken (text : List Char) : Prop :=
  ∀ c ∈ text, ' '.toNat ≤ c.toNat

namespace Text

variable {c : Char} {s t : List Char}

instance : DecidablePred Unbroken :=
  List.decidableBAll fun c : Char => ' '.toNat ≤ c.toNat

@[simp] theorem unbroken_nil : Unbroken [] :=
  nofun

@[simp] theorem unbroken_cons : Unbroken (c :: s) ↔ ' '.toNat ≤ c.toNat ∧ Unbroken s :=
  List.forall_mem_cons

@[simp] theorem unbroken_append : Unbroken (s ++ t) ↔ Unbroken s ∧ Unbroken t :=
  List.forall_mem_append

theorem Unbroken.sublist (unbroken : Unbroken t) (inside : s.Sublist t) : Unbroken s :=
  fun c member => unbroken c (inside.mem member)

theorem unbroken_flatMap {α : Type} {parts : List α} {text : α → List Char} :
    Unbroken (parts.flatMap text) ↔ ∀ part ∈ parts, Unbroken (text part) := by
  simp only [Unbroken, List.mem_flatMap]
  exact ⟨fun all part member c inside => all c ⟨part, member, inside⟩,
    fun all c ⟨part, member, inside⟩ => all part member c inside⟩

theorem unbroken_replicate (n : Nat) (printable : ' '.toNat ≤ c.toNat) :
    Unbroken (List.replicate n c) := by
  intro d member
  rwa [List.eq_of_mem_replicate member]

theorem unbroken_toDigits (n : Nat) : Unbroken (Nat.toDigits 10 n) := by
  intro c member
  have digit := Nat.isDigit_of_mem_toDigits (by decide) (by decide) member
  simp only [Char.isDigit, Bool.and_eq_true, decide_eq_true_eq] at digit
  exact Nat.le_trans (by decide) digit.1

end Text

open Text

namespace Binary64

theorem dropFinalZeros_sublist (digits : List Char) : (dropFinalZeros digits).Sublist digits := by
  have kept := (List.dropWhile_sublist (l := digits.reverse) (· = '0')).reverse
  rwa [List.reverse_reverse] at kept

theorem Decimal.unbroken_text (d : Decimal) : Unbroken d.text := by
  have digits : Unbroken (dropFinalZeros (Nat.toDigits 10 d.digits)) :=
    (unbroken_toDigits _).sublist (dropFinalZeros_sublist _)
  have front (n : Nat) := digits.sublist (List.take_sublist n _)
  have back (n : Nat) := digits.sublist (List.drop_sublist n _)
  have zeros (n : Nat) : Unbroken (List.replicate n '0') := unbroken_replicate n (by decide)
  simp only [Decimal.text]
  split
  · simp [digits, zeros]
  split
  · split <;> simp [front, back, zeros]
  · split <;> split <;> simp [front, digits.sublist (List.tail_sublist _), unbroken_toDigits]

theorem unbroken_text (x : Binary64) : Unbroken x.text := by
  simp only [text]
  split <;> split <;> simp [Decimal.unbroken_text]

end Binary64

namespace Json

theorem Number.unbroken_text (n : Number) : Unbroken n.text := by
  cases n with
  | unsigned n => exact unbroken_toDigits _
  | signed n =>
    rw [Number.text]
    split <;> simp [unbroken_toDigits]
  | float x => exact x.unbroken_text

theorem unbroken_hexPair : ∀ n < 32, Unbroken (hexPair n) := by
  decide

theorem unbroken_escapedChar (c : Char) : Unbroken (escapedChar c) := by
  unfold escapedChar
  split_ifs with quote backslash printable
  case neg => simpa using unbroken_hexPair c.toNat (by omega)
  all_goals simp [*]

theorem unbroken_stringText (s : String) : Unbroken (stringText s) := by
  have inner : Unbroken (s.toList.flatMap escapedChar) :=
    unbroken_flatMap.mpr fun c _ => unbroken_escapedChar c
  simp [stringText, inner]

namespace Value

theorem elementChars_cons (x : Value) (xs : List Value) :
    elementChars (x :: xs) = x.chars ++ xs.flatMap fun y => ',' :: y.chars := by
  induction xs generalizing x with
  | nil => rw [elementChars, List.flatMap_nil, List.append_nil]
  | cons y ys ih => rw [elementChars, ih, List.flatMap_cons, List.cons_append]

theorem memberChars_cons (m : String × Value) (members : List (String × Value)) :
    memberChars (m :: members) = pairChars m ++ members.flatMap fun n => ',' :: pairChars n := by
  induction members generalizing m with
  | nil => rw [memberChars, List.flatMap_nil, List.append_nil]
  | cons n members ih => rw [memberChars, ih, List.flatMap_cons, List.cons_append]

theorem unbroken_elementChars {xs : List Value} (each : ∀ x ∈ xs, Unbroken x.chars) :
    Unbroken (elementChars xs) := by
  cases xs with
  | nil => exact unbroken_nil
  | cons x xs =>
    obtain ⟨first, each⟩ := List.forall_mem_cons.mp each
    rw [elementChars_cons, unbroken_append, unbroken_flatMap]
    exact ⟨first, fun y member => unbroken_cons.mpr ⟨by decide, each y member⟩⟩

theorem unbroken_memberChars {members : List (String × Value)}
    (each : ∀ m ∈ members, Unbroken m.2.chars) : Unbroken (memberChars members) := by
  have pair (m : String × Value) (value : Unbroken m.2.chars) : Unbroken (pairChars m) := by
    rw [pairChars, unbroken_append, unbroken_cons]
    exact ⟨unbroken_stringText _, by decide, value⟩
  cases members with
  | nil => exact unbroken_nil
  | cons m members =>
    obtain ⟨first, each⟩ := List.forall_mem_cons.mp each
    rw [memberChars_cons, unbroken_append, unbroken_flatMap]
    exact ⟨pair m first, fun n member =>
      unbroken_cons.mpr ⟨by decide, pair n (each n member)⟩⟩

theorem unbroken_chars (x : Value) : Unbroken x.chars := by
  induction x using parts_induction with
  | null => rw [chars]; decide
  | bool b => cases b <;> rw [chars] <;> decide
  | number n => exact n.unbroken_text
  | string s => exact unbroken_stringText s
  | array xs each =>
    rw [chars]
    simp [unbroken_elementChars each]
  | object members each =>
    rw [chars]
    simp [unbroken_memberChars each]

end Value

end Json

end LayerGraph
