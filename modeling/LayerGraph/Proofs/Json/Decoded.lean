import LayerGraph.Json.Decoder
import LayerGraph.Proofs.Json.Reader

/-!
# What decoders yield

What is read fits into the levels that were allowed, and its numbers are of the right class. A
property of what a decoder yields from texts follows from those of its parts.
-/

namespace LayerGraph

namespace Json

variable {s r : List Char}

theorem genuine_ofInteger (negative : Bool) (word : UInt64) :
    (Number.ofInteger negative word).Genuine := by
  unfold Number.ofInteger
  split
  · trivial
  · split
    · rename_i fits
      simp only [Bool.and_eq_true, decide_eq_true_eq] at fits
      have value : (Int64.ofInt (-word.toNat)).toInt = -word.toNat :=
        Int64.toInt_ofInt_of_le (by omega) (by omega)
      refine Int64.lt_iff_toInt_lt.mpr ?_
      rw [value]
      simpa using fits.1
    · trivial

theorem genuine_of_floatNumber {negative : Bool} {significand : Nat} {exponent : Int} {n : Number}
    (read : floatNumber negative significand exponent s = .ok (n, r)) : n.Genuine := by
  unfold floatNumber at read
  split at read
  · cases read
    trivial
  · cases read

theorem genuine_of_exponentPart {negative : Bool} {significand : Nat} {places : Int} {n : Number}
    (read : exponentPart negative significand places s = .ok (n, r)) : n.Genuine := by
  unfold exponentPart at read
  split at read
  split at read
  · cases read
  · split at read
    · exact genuine_of_floatNumber read
    · split at read
      · cases read
      · cases read
        trivial

theorem genuine_of_fractionPart {negative : Bool} {significand : Nat} {places : Int} {n : Number}
    (read : fractionPart negative significand places s = .ok (n, r)) : n.Genuine := by
  unfold fractionPart at read
  split at read
  · cases read
  · split at read
    split at read
    · exact genuine_of_exponentPart read
    · exact genuine_of_exponentPart read
    · exact genuine_of_floatNumber read

theorem genuine_of_afterInteger {negative : Bool} {significand dropped : Nat} {n : Number}
    (read : afterInteger negative significand dropped s = .ok (n, r)) : n.Genuine := by
  unfold afterInteger at read
  split at read
  · exact genuine_of_fractionPart read
  · exact genuine_of_exponentPart read
  · exact genuine_of_exponentPart read
  · split at read
    · cases read
      exact genuine_ofInteger ..
    · exact genuine_of_floatNumber read

theorem genuine_of_number {negative : Bool} {n : Number}
    (read : number negative s = .ok (n, r)) : n.Genuine := by
  unfold number at read
  split at read
  · cases read
  · split at read
    · cases read
    · exact genuine_of_afterInteger read
  · split at read
    · exact genuine_of_afterInteger read
    · cases read

theorem ScalarFrom.fits {nesting : Nat} {x : Value} (read : ScalarFrom s x r) :
    x.Fits nesting := by
  cases read with
  | null => exact .null
  | yes | no => exact .bool _
  | string => exact .string _
  | negative read | number _ read => exact .number (genuine_of_number read)

theorem fits_of_written {nesting : Nat} {x : Value} (read : written nesting s = .ok (x, r)) :
    x.Fits nesting := by
  induction nesting generalizing s x r with
  | zero =>
    cases written_eq_ok_iff.mp read with
    | scalar read => exact read.fits
  | succ nesting ih =>
    cases written_eq_ok_iff.mp read with
    | list _ inner => exact .array (inner.forall fun _ _ _ => ih)
    | object _ inner => exact .object (inner.forall fun _ _ _ => ih)
    | scalar read => exact read.fits

theorem normal_of_value {nesting : Nat} {x : Value} (read : value nesting s = .ok (x, r)) :
    x.Normal nesting := by
  obtain ⟨⟨raw, _⟩, written, read⟩ := bind_eq_ok_iff.mp read
  cases read
  exact ⟨(fits_of_written written).sorted, raw.sorted_sorted⟩

namespace Decoder

variable {α β : Type} {nesting : Nat} {P : α → Prop} {Q : β → Prop}

def Ensures (item : Decoder α) (nesting : Nat) (P : α → Prop) : Prop :=
  ∀ ⦃s r x⦄, item.ofText nesting s = .ok (x, r) → P x

theorem ensures_true (item : Decoder α) (nesting : Nat) :
    item.Ensures nesting fun _ => True :=
  fun _ _ _ _ => trivial

theorem ensures_table : table.Ensures (nesting + 1) fun members =>
    (Value.object members).Normal (nesting + 1) := by
  intro s r x read
  simp only [table] at read
  split at read
  · obtain ⟨⟨pairs, _⟩, inner, read⟩ := bind_eq_ok_iff.mp read
    cases read
    obtain ⟨_, inner, -⟩ := members_eq_ok_iff.mp inner
    have each := inner.forall fun _ _ _ => normal_of_value
    have each : ∀ m ∈ Table.ofList pairs, m.2.Normal nesting :=
      fun m member => each m (Table.mem_of_mem_ofList member)
    exact ⟨.object fun m member => (each m member).fits,
      Value.sorted_object_eq_self (Table.sorted_ofList pairs) fun m member => (each m member).sorted⟩
  · cases read

theorem Ensures.map {item : Decoder α} (ensures : item.Ensures nesting P) {f : α → β}
    (keeps : ∀ x, P x → Q (f x)) : (item.map f).Ensures nesting Q := by
  intro s r y read
  obtain ⟨⟨x, _⟩, inner, read⟩ := bind_eq_ok_iff.mp read
  cases read
  exact keeps x (ensures inner)

theorem Ensures.orNull {item : Decoder α} (ensures : item.Ensures nesting P) {default : α}
    (holds : P default) : (item.orNull default).Ensures nesting P := by
  intro s r x read
  simp only [Decoder.orNull] at read
  split at read
  · obtain ⟨_, -, read⟩ := bind_eq_ok_iff.mp read
    cases read
    exact holds
  · exact ensures read

theorem Ensures.list {item : Decoder α} (ensures : item.Ensures nesting P) :
    item.list.Ensures (nesting + 1) fun xs => ∀ x ∈ xs, P x := by
  intro s r xs read
  simp only [Decoder.list] at read
  split at read
  · obtain ⟨_, elements, -⟩ := elements_eq_ok_iff.mp read
    exact elements.forall fun _ _ _ inner => ensures inner
  · cases read

theorem Ensures.field {item : Decoder α} (ensures : item.Ensures nesting P) {name : String}
    {set : α → β → β} (keeps : ∀ x y, P x → Q y → Q (set x y)) :
    (Field.of name item set).change.Ensures nesting fun change => ∀ y, Q y → Q (change y) :=
  ensures.map fun x holds y => keeps x y holds

theorem ensures_fieldsInOrder {fields : List (Field α)}
    (ensures : ∀ field ∈ fields, field.change.Ensures nesting fun change => ∀ x, P x → P (change x))
    {first : Bool} {record x : α} (holds : P record)
    (read : fieldsInOrder nesting fields first record s = .ok (x, r)) : P x := by
  induction fields generalizing first record s with
  | nil =>
    cases read
    exact holds
  | cons field fields ih =>
    obtain ⟨ensure, ensures⟩ := List.forall_mem_cons.mp ensures
    obtain ⟨found, -, read⟩ := bind_eq_ok_iff.mp read
    cases found with
    | none =>
      cases read
      exact holds
    | some t =>
      obtain ⟨⟨change, t'⟩, changed, read⟩ := bind_eq_ok_iff.mp read
      exact ih ensures (ensure changed record holds) read

theorem ensures_fieldsByName {fields : List (Field α)}
    (ensures : ∀ field ∈ fields, field.change.Ensures nesting fun change => ∀ x, P x → P (change x))
    {fuel : Nat} {first : Bool} {seen : List String} {record x : α} (holds : P record)
    (read : fieldsByName fields nesting fuel first seen record s = .ok (x, r)) : P x := by
  induction fuel generalizing first seen record s with
  | zero => cases read
  | succ fuel ih =>
    obtain ⟨found, -, read⟩ := bind_eq_ok_iff.mp read
    cases found with
    | none =>
      cases read
      exact holds
    | some t =>
      obtain ⟨⟨name, t'⟩, -, read⟩ := bind_eq_ok_iff.mp read
      dsimp only at read
      split at read
      · obtain ⟨_, -, read⟩ := bind_eq_ok_iff.mp read
        obtain ⟨_, -, read⟩ := bind_eq_ok_iff.mp read
        exact ih holds read
      · rename_i field known
        split at read
        · cases read
        · obtain ⟨_, -, read⟩ := bind_eq_ok_iff.mp read
          obtain ⟨⟨change, _⟩, changed, read⟩ := bind_eq_ok_iff.mp read
          have inside := List.mem_of_find?_eq_some known
          exact ih (ensures field inside changed record holds) read

/-- A record has a property that its blank has and that every field keeps. -/
theorem ensures_record {form : String} {fields : List (Field α)} {blank : α}
    (ensures : ∀ field ∈ fields, field.change.Ensures nesting fun change => ∀ x, P x → P (change x))
    (holds : P blank) : (record form fields blank).Ensures (nesting + 1) P := by
  intro s r x read
  simp only [record] at read
  split at read
  · obtain ⟨⟨_, _⟩, inner, read⟩ := bind_eq_ok_iff.mp read
    obtain ⟨_, -, read⟩ := bind_eq_ok_iff.mp read
    cases read
    exact ensures_fieldsInOrder ensures holds inner
  · obtain ⟨⟨_, _⟩, inner, read⟩ := bind_eq_ok_iff.mp read
    obtain ⟨_, -, read⟩ := bind_eq_ok_iff.mp read
    cases read
    exact ensures_fieldsByName ensures holds inner
  · cases read

end Decoder

end Json

end LayerGraph
