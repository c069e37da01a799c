import LayerGraph.Json.Decoder
import LayerGraph.Proofs.Json.Skipping
import Mathlib.Data.List.Pairwise

/-!
# Decoding texts and decoding values

A decoder takes the same from a text and from the value that the text holds, if no object repeats a
name. This is stated where the value can be read, and then carries over from the parts of a decoder
to the whole.
-/

namespace LayerGraph

namespace Json

/-- No object that is written in the text repeats a member name. -/
def DistinctNames (text : String) : Prop :=
  ∀ raw r, written maxNesting text.toList = .ok (raw, r) → raw.Distinct

namespace Decoder

variable {α β : Type} {nesting : Nat} {s r : List Char}

/-- Where a value without repeated names is read, the decoder takes from the text what it takes from
the sorted value, and leaves what is left behind the value. -/
def Agrees (item : Decoder α) : Prop :=
  ∀ ⦃nesting : Nat⦄ ⦃s r : List Char⦄ ⦃raw : Value⦄, written nesting s = .ok (raw, r) →
    raw.Distinct → ∀ {x : α} {t : List Char},
      item.ofText nesting s = .ok (x, t) ↔ item.ofValue raw.sorted = .ok x ∧ t = r

theorem agrees_any : any.Agrees := by
  intro nesting s r raw read _ x t
  simp [any, value, read, eq_comm]

theorem Agrees.map {item : Decoder α} (agrees : item.Agrees) (f : α → β) :
    (item.map f).Agrees := by
  intro nesting s r raw read distinct y t
  simp only [Decoder.map, bind_eq_ok_iff, map_eq_ok_iff, Prod.exists, agrees read distinct,
    pure_eq_ok, Except.ok.injEq, Prod.mk.injEq]
  constructor
  · rintro ⟨x, _, ⟨found, rfl⟩, rfl, rfl⟩
    exact ⟨⟨x, found, rfl⟩, rfl⟩
  · rintro ⟨⟨x, found, rfl⟩, rfl⟩
    exact ⟨x, t, ⟨found, rfl⟩, rfl, rfl⟩

theorem Agrees.field {item : Decoder β} (agrees : item.Agrees) (name : String)
    (set : β → α → α) : (Field.of name item set).change.Agrees :=
  agrees.map set

theorem orNull_ofValue {item : Decoder α} {default : α} {v : Value} (notNull : v ≠ .null) :
    (item.orNull default).ofValue v = item.ofValue v := by
  cases v with
  | null => contradiction
  | _ => rfl

theorem Agrees.orNull {item : Decoder α} (agrees : item.Agrees) (default : α) :
    (item.orNull default).Agrees := by
  intro nesting s r raw read distinct x t
  rw [← written_skipBlanks] at read
  simp only [Decoder.orNull]
  split
  · rename_i u start
    rw [start] at read
    obtain ⟨rfl, spelled⟩ := null_of_written read
    simp [spelled, Value.sorted, eq_comm]
  · rename_i notNull
    have sorted : raw.sorted ≠ .null := by
      intro null
      rw [Value.sorted_eq_null.mp null] at read
      obtain ⟨u, start⟩ := start_of_written_null read
      rw [skipBlanks_skipBlanks] at start
      exact notNull u start
    change _ ↔ (item.orNull default).ofValue raw.sorted = .ok x ∧ t = r
    rw [agrees read distinct, orNull_ofValue sorted]

theorem agrees_table : table.Agrees := by
  intro nesting s r raw read _ x t
  cases written_eq_ok_iff.mp read with
  | list start => simp [table, start, Value.sorted_array]
  | object start inner close short =>
    have inner := members_eq_ok_iff.mpr ⟨_, inner.map_sorted, close, by simpa using short⟩
    simp [table, start, inner, Value.sorted_object, eq_comm]
  | scalar read =>
    simp only [table]
    split
    · rename_i start
      exact absurd (start ▸ read) ScalarFrom.ne_brace
    · cases read.plain <;> simp [Value.sorted]

theorem Agrees.elementsUpTo {item : Decoder α} (agrees : item.Agrees) {first : Bool}
    {raws : List Value} (elements : ElementsFrom (written nesting) first s raws r)
    (distinct : ∀ raw ∈ raws, raw.Distinct) {fuel : Nat} (enough : raws.length < fuel)
    {xs : List α} {t : List Char} :
    elementsUpTo (item.ofText nesting) fuel first s = .ok (xs, t) ↔
      (raws.map Value.sorted).mapM item.ofValue = .ok xs ∧ t = r := by
  induction elements generalizing fuel xs with
  | done next =>
    obtain ⟨fuel, rfl⟩ := Nat.exists_eq_add_one.mpr enough
    simp [Json.elementsUpTo, next, eq_comm]
  | more next read _ ih =>
    obtain ⟨fuel, rfl⟩ := Nat.exists_eq_add_one.mpr (Nat.zero_lt_of_lt enough)
    obtain ⟨distinct, others⟩ := List.forall_mem_cons.mp distinct
    have ih := @ih others fuel (Nat.lt_of_succ_lt_succ enough)
    simp only [Json.elementsUpTo, next, ok_bind, bind_eq_ok_iff, Prod.exists,
      agrees read distinct, List.map_cons, List.mapM_cons, pure_eq_ok, Except.ok.injEq,
      Prod.mk.injEq]
    constructor
    · rintro ⟨x, _, ⟨found, rfl⟩, xs, _, later, rfl, rfl⟩
      obtain ⟨rest, rfl⟩ := ih.mp later
      exact ⟨⟨x, found, xs, rest, rfl⟩, rfl⟩
    · rintro ⟨⟨x, found, xs, rest, rfl⟩, rfl⟩
      exact ⟨x, _, ⟨found, rfl⟩, xs, t, ih.mpr ⟨rest, rfl⟩, rfl, rfl⟩

theorem Agrees.list {item : Decoder α} (agrees : item.Agrees) : item.list.Agrees := by
  intro nesting s r raw read distinct xs t
  cases written_eq_ok_iff.mp read with
  | list start inner close short =>
    cases distinct with
    | array distinct =>
      have inner := @agrees.elementsUpTo _ _ _ _ _ _ _ inner distinct _ (Nat.lt_succ_of_le short)
      simp only [Decoder.list, start, elements, bind_eq_ok_iff, Prod.exists, inner,
        Value.sorted_array, pure_eq_ok, Except.ok.injEq, Prod.mk.injEq]
      constructor
      · rintro ⟨_, _, ⟨found, rfl⟩, _, closed, rfl, rfl⟩
        exact ⟨found, Except.ok.inj (closed.symm.trans close)⟩
      · rintro ⟨found, rfl⟩
        exact ⟨xs, _, ⟨found, rfl⟩, t, close, rfl, rfl⟩
  | object start => simp [Decoder.list, start, Value.sorted_object]
  | scalar read =>
    simp only [Decoder.list]
    split
    · rename_i start
      exact absurd (start ▸ read) ScalarFrom.ne_bracket
    · cases read.plain <;> simp [Value.sorted]

theorem list_ofValue_sorted {item : Decoder α} {encode : α → Value} {xs : List α}
    (each : ∀ x ∈ xs, item.ofValue (encode x).sorted = .ok x) :
    item.list.ofValue (Value.array (xs.map encode)).sorted = .ok xs := by
  rw [Value.sorted_array]
  change ((xs.map encode).map Value.sorted).mapM item.ofValue = .ok xs
  induction xs with
  | nil => rfl
  | cons x xs ih =>
    obtain ⟨first, each⟩ := List.forall_mem_cons.mp each
    simp only [List.map_cons, List.mapM_cons, first, ih each, ok_bind, pure_eq_ok]

theorem agrees_fieldsInOrder {fields : List (Field α)}
    (agrees : ∀ field ∈ fields, field.change.Agrees) {first : Bool} {raws : List Value}
    {u : List Char} (elements : ElementsFrom (written nesting) first s raws u)
    (close : closeList u = .ok r) (distinct : ∀ raw ∈ raws, raw.Distinct) {blank x : α}
    {t : List Char} :
    (∃ u, fieldsInOrder nesting fields first blank s = .ok (x, u) ∧ closeList u = .ok t) ↔
      (changeInOrder fields (raws.map Value.sorted) blank = .ok x ∧
        raws.length ≤ fields.length) ∧ t = r := by
  induction elements generalizing fields blank with
  | done next =>
    cases fields <;> simp [fieldsInOrder, changeInOrder, next, close, eq_comm]
  | more next read _ ih =>
    obtain ⟨distinct, others⟩ := List.forall_mem_cons.mp distinct
    cases fields with
    | nil =>
      simp [fieldsInOrder, closeList_ne_ok next]
    | cons field fields =>
      obtain ⟨agree, agrees⟩ := List.forall_mem_cons.mp agrees
      have ih := @ih fields agrees close others
      simp only [fieldsInOrder, next, ok_bind, bind_eq_ok_iff, Prod.exists, agree read distinct,
        List.map_cons, changeInOrder, List.length_cons, Nat.add_le_add_iff_right]
      constructor
      · rintro ⟨_, ⟨change, _, ⟨found, rfl⟩, later⟩, closed⟩
        obtain ⟨⟨rest, short⟩, rfl⟩ := ih.mp ⟨_, later, closed⟩
        exact ⟨⟨⟨change, found, rest⟩, short⟩, rfl⟩
      · rintro ⟨⟨⟨change, found, rest⟩, short⟩, rfl⟩
        obtain ⟨u, later, closed⟩ := ih.mpr ⟨⟨rest, short⟩, rfl⟩
        exact ⟨u, ⟨change, _, ⟨found, rfl⟩, later⟩, closed⟩

def memberChange (fields : List (Field α)) (member : String × Value) :
    Except Mismatch (α → α) :=
  match field? fields member.1 with
  | none => .ok id
  | some field => field.change.ofValue member.2

theorem changeByName_eq (fields : List (Field α)) (record : α) (member : String × Value) :
    changeByName fields record member =
      (memberChange fields member).map fun change => change record := by
  unfold changeByName memberChange
  cases field? fields member.1 with
  | none => rfl
  | some field => cases field.change.ofValue member.2 <;> rfl

@[simp] theorem Field.of_name (name : String) (item : Decoder β) (set : β → α → α) :
    (Field.of name item set).name = name :=
  rfl

/-- The field in front takes the member of its name. -/
theorem changeByName_head {name : String} {item : Decoder β} {set : β → α → α} {v : Value} {y : β}
    (taken : item.ofValue v = .ok y) (fields : List (Field α)) (record : α) :
    changeByName (.of name item set :: fields) record (name, v) = .ok (set y record) := by
  simp [changeByName, field?, Field.of, Decoder.map, taken, Except.map]

/-- The field in front leaves a member of another name to the fields behind it. -/
theorem changeByName_of_ne {field : Field α} {member : String × Value}
    (other : field.name ≠ member.1) (fields : List (Field α)) (record : α) :
    changeByName (field :: fields) record member = changeByName fields record member := by
  simp [changeByName, field?, other]

theorem changeByName_tail {name key : String} (other : name ≠ key) (item : Decoder β)
    (set : β → α → α) (v : Value) (fields : List (Field α)) (record : α) :
    changeByName (.of name item set :: fields) record (key, v) =
      changeByName fields record (key, v) :=
  changeByName_of_ne other fields record

theorem mem_of_field? {fields : List (Field α)} {name : String} {field : Field α}
    (found : field? fields name = some field) : field ∈ fields ∧ field.name = name :=
  ⟨List.mem_of_find?_eq_some found, by simpa using List.find?_some found⟩

def Apart (f g : Field α) : Prop :=
  ∀ {x y : Value} {change other : α → α}, f.change.ofValue x = .ok change →
    g.change.ofValue y = .ok other → ∀ record, change (other record) = other (change record)

instance : Std.Symm (@Apart α) :=
  ⟨fun _ _ apart _ _ _ _ changed changed' record => (apart changed' changed record).symm⟩

theorem apart_of {β γ : Type} {name name' : String} {item : Decoder β} {item' : Decoder γ}
    {set : β → α → α} {set' : γ → α → α}
    (comm : ∀ y z record, set y (set' z record) = set' z (set y record)) :
    Apart (Field.of name item set) (Field.of name' item' set') := by
  intro x x' change other changed changed' record
  obtain ⟨y, -, rfl⟩ := map_eq_ok_iff.mp changed
  obtain ⟨z, -, rfl⟩ := map_eq_ok_iff.mp changed'
  exact comm y z record

theorem memberChange_comm {fields : List (Field α)} (apart : fields.Pairwise Apart)
    {m n : String × Value} (different : m.1 ≠ n.1) {change other : α → α}
    (changed : memberChange fields m = .ok change) (changed' : memberChange fields n = .ok other)
    (record : α) : change (other record) = other (change record) := by
  unfold memberChange at changed changed'
  split at changed
  · cases changed
    rfl
  · rename_i f found
    split at changed'
    · cases changed'
      rfl
    · rename_i g found'
      obtain ⟨inside, named⟩ := mem_of_field? found
      obtain ⟨inside', named'⟩ := mem_of_field? found'
      have distinct : f ≠ g := fun same => different (by rw [← named, ← named', same])
      exact apart.forall inside inside' distinct changed changed' record

/-- The members of an object may change a record in any order. -/
theorem foldlM_changeByName_perm {fields : List (Field α)} (apart : fields.Pairwise Apart)
    {pairs others : List (String × Value)} (perm : pairs.Perm others)
    (names : (pairs.map (·.1)).Nodup) {record x : α} :
    pairs.foldlM (changeByName fields) record = .ok x ↔
      others.foldlM (changeByName fields) record = .ok x := by
  induction perm generalizing record with
  | nil => rfl
  | cons m _ ih =>
    have names := (List.nodup_cons.mp names).2
    simp only [List.foldlM_cons, bind_eq_ok_iff, ih names]
  | swap m n rest =>
    have different : n.1 ≠ m.1 := by
      intro same
      simp [same] at names
    simp only [List.foldlM_cons, bind_eq_ok_iff, changeByName_eq, map_eq_ok_iff]
    constructor
    · rintro ⟨_, ⟨change, changed, rfl⟩, _, ⟨other, changed', rfl⟩, later⟩
      rw [memberChange_comm apart different.symm changed' changed] at later
      exact ⟨_, ⟨other, changed', rfl⟩, _, ⟨change, changed, rfl⟩, later⟩
    · rintro ⟨_, ⟨change, changed, rfl⟩, _, ⟨other, changed', rfl⟩, later⟩
      rw [memberChange_comm apart different changed' changed] at later
      exact ⟨_, ⟨other, changed', rfl⟩, _, ⟨change, changed, rfl⟩, later⟩
  | trans first _ ih ih' =>
    exact (ih names).trans (ih' ((first.map _).nodup_iff.mp names))

theorem agrees_fieldsByName {fields : List (Field α)}
    (agrees : ∀ field ∈ fields, field.change.Agrees) {first : Bool}
    {pairs : List (String × Value)} (members : MembersFrom (written nesting) first s pairs r)
    (distinct : ∀ m ∈ pairs, m.2.Distinct) {seen : List String}
    (names : (seen ++ pairs.map (·.1)).Nodup) {fuel : Nat} (enough : pairs.length < fuel)
    {blank x : α} {t : List Char} :
    fieldsByName fields nesting fuel first seen blank s = .ok (x, t) ↔
      (pairs.map Value.sortedMember).foldlM (changeByName fields) blank = .ok x ∧ t = r := by
  induction members generalizing seen fuel blank with
  | done next =>
    obtain ⟨fuel, rfl⟩ := Nat.exists_eq_add_one.mpr enough
    simp [fieldsByName, next, eq_comm]
  | @more _ _ _ _ _ _ _ name raw pairs next named sep read _ ih =>
    obtain ⟨fuel, rfl⟩ := Nat.exists_eq_add_one.mpr (Nat.zero_lt_of_lt enough)
    obtain ⟨distinct, others⟩ := List.forall_mem_cons.mp distinct
    have enough := Nat.lt_of_succ_lt_succ enough
    have names : (name :: (seen ++ pairs.map (·.1))).Nodup :=
      List.perm_middle.nodup_iff.mp names
    obtain ⟨fresh, left⟩ := List.nodup_cons.mp names
    simp only [fieldsByName, next, named, ok_bind, List.map_cons, List.foldlM_cons,
      Value.sortedMember_eq, changeByName]
    cases known : field? fields name with
    | none => simp only [sep, skip_of_written read, ok_bind, ih others left enough]
    | some field =>
      have fresh : seen.contains name = false := by
        rw [List.mem_append, not_or] at fresh
        simpa using fresh.1
      have agree := agrees field (mem_of_field? known).1
      have ih := @ih others (name :: seen) names fuel enough
      simp only [fresh, Bool.false_eq_true, if_false, sep, ok_bind, bind_eq_ok_iff, Prod.exists,
        agree read distinct, pure_eq_ok, Except.ok.injEq]
      constructor
      · rintro ⟨change, _, ⟨found, rfl⟩, later⟩
        obtain ⟨rest, rfl⟩ := ih.mp later
        exact ⟨⟨_, ⟨change, found, rfl⟩, rest⟩, rfl⟩
      · rintro ⟨⟨_, ⟨change, found, rfl⟩, rest⟩, rfl⟩
        exact ⟨change, _, ⟨found, rfl⟩, ih.mpr ⟨rest, rfl⟩⟩

theorem record_ofText_list {form : String} {fields : List (Field α)} {blank x : α}
    {t u : List Char} (start : skipBlanks s = '[' :: u) :
    (record form fields blank).ofText (nesting + 1) s = .ok (x, t) ↔
      ∃ v, fieldsInOrder nesting fields true blank u = .ok (x, v) ∧ closeList v = .ok t := by
  simp only [record, start, bind_eq_ok_iff, Prod.exists, pure_eq_ok, Except.ok.injEq,
    Prod.mk.injEq]
  constructor
  · rintro ⟨_, v, changed, _, close, rfl, rfl⟩
    exact ⟨v, changed, close⟩
  · rintro ⟨v, changed, close⟩
    exact ⟨x, v, changed, t, close, rfl, rfl⟩

theorem record_ofValue_array {form : String} {fields : List (Field α)} {blank x : α}
    {xs : List Value} : (record form fields blank).ofValue (.array xs) = .ok x ↔
      changeInOrder fields xs blank = .ok x ∧ xs.length ≤ fields.length := by
  simp only [record, bind_eq_ok_iff]
  constructor
  · rintro ⟨_, changed, kept⟩
    split at kept
    · cases kept
    · rename_i short
      cases kept
      exact ⟨changed, not_lt.mp short⟩
  · rintro ⟨changed, short⟩
    exact ⟨x, changed, if_neg (not_lt.mpr short)⟩

theorem record_ofValue_sorted {form : String} {fields : List (Field α)}
    (apart : fields.Pairwise Apart) {blank x : α} {members : List (String × Value)}
    (names : (members.map (·.1)).Nodup) :
    (record form fields blank).ofValue (Value.object members).sorted = .ok x ↔
      (members.map Value.sortedMember).foldlM (changeByName fields) blank = .ok x := by
  have names := (Value.map_fst_sortedMember members).symm ▸ names
  rw [Value.sorted_object]
  exact foldlM_changeByName_perm apart (Table.ofList_perm names) (Table.sorted_ofList _).nodup_names

/-- A record agrees if its fields do and change different parts of it. -/
theorem agrees_record (form : String) {fields : List (Field α)}
    (agrees : ∀ field ∈ fields, field.change.Agrees) (apart : fields.Pairwise Apart)
    (blank : α) : (record form fields blank).Agrees := by
  intro nesting s r raw read distinct x t
  cases written_eq_ok_iff.mp read with
  | list start inner close short =>
    cases distinct with
    | array distinct =>
      rw [record_ofText_list start, agrees_fieldsInOrder agrees inner close distinct,
        Value.sorted_array, record_ofValue_array, List.length_map]
  | object start inner close short =>
    cases distinct with
    | object names distinct =>
      have inner := @agrees_fieldsByName _ _ _ _ _ agrees _ _ inner distinct [] names _
        (Nat.lt_succ_of_le short)
      rw [record_ofValue_sorted apart names]
      simp only [record, start, bind_eq_ok_iff, Prod.exists, inner, pure_eq_ok, Except.ok.injEq,
        Prod.mk.injEq]
      constructor
      · rintro ⟨_, _, ⟨found, rfl⟩, _, closed, rfl, rfl⟩
        exact ⟨found, Except.ok.inj (closed.symm.trans close)⟩
      · rintro ⟨found, rfl⟩
        exact ⟨x, _, ⟨found, rfl⟩, t, close, rfl, rfl⟩
  | scalar read =>
    simp only [record]
    split
    · rename_i start
      exact absurd (start ▸ read) ScalarFrom.ne_bracket
    · rename_i start
      exact absurd (start ▸ read) ScalarFrom.ne_brace
    · cases read.plain <;> simp [Value.sorted]

theorem decode_eq_ok_iff {item : Decoder α} {text : String} {x : α} :
    item.decode text = .ok x ↔
      ∃ r, item.ofText maxNesting text.toList = .ok (x, r) ∧ skipBlanks r = [] := by
  simp only [decode]
  split
  · rename_i fault failed
    simp [failed]
  · rename_i y r read
    simp only [read, Except.ok.injEq, Prod.mk.injEq]
    split
    · rename_i ended
      simp only [Except.ok.injEq]
      exact ⟨fun same => ⟨r, ⟨same, rfl⟩, ended⟩, fun ⟨_, ⟨same, _⟩, _⟩ => same⟩
    · rename_i more
      constructor
      · intro failed
        cases failed
      · rintro ⟨_, ⟨-, rfl⟩, ended⟩
        exact absurd ended more

theorem decodeValue_eq_ok_iff {item : Decoder α} {v : Value} {x : α} :
    item.decodeValue v = .ok x ↔ item.ofValue v = .ok x := by
  unfold decodeValue
  cases item.ofValue v <;> simp [Except.mapError]

/-- Where a text without repeated names has a value, decoding it is decoding that value. -/
theorem Agrees.decode_iff {item : Decoder α} (agrees : item.Agrees) {text : String} {v : Value}
    (parsed : any.decode text = .ok v) (distinct : DistinctNames text) {x : α} :
    item.decode text = .ok x ↔ item.decodeValue v = .ok x := by
  obtain ⟨r, read, ended⟩ := decode_eq_ok_iff.mp parsed
  obtain ⟨⟨raw, _⟩, read, sorted⟩ := bind_eq_ok_iff.mp read
  cases sorted
  have agrees := @agrees _ _ _ _ read (distinct raw r read)
  simp only [decode_eq_ok_iff, decodeValue_eq_ok_iff, agrees]
  constructor
  · rintro ⟨t, ⟨found, rfl⟩, -⟩
    exact found
  · rintro found
    exact ⟨r, ⟨found, rfl⟩, ended⟩

end Decoder

end Json

end LayerGraph
