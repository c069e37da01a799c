import LayerGraph.Proofs.Graph.LayerName
import LayerGraph.Proofs.Graph.Resolution
import LayerGraph.Proofs.NodeRules

/-!
# Distinct names

A name of a layer can be read in one way only. Digits occur in the names of kinds, but never at
their end, so the number is all digits behind the last other character. Together with the numbers
of each kind, which count up from one, this makes all names of layers distinct.
-/

namespace LayerGraph

/-- A text that does not end in a digit and the digits behind it can be told apart. -/
theorem append_digits_inj {stem stem' digits digits' : List Char}
    (ends : ∀ c ∈ stem.getLast?, c.isDigit = false)
    (ends' : ∀ c ∈ stem'.getLast?, c.isDigit = false)
    (numeric : ∀ c ∈ digits, c.isDigit = true) (numeric' : ∀ c ∈ digits', c.isDigit = true)
    (same : stem ++ digits = stem' ++ digits') : stem = stem' ∧ digits = digits' := by
  -- What one stem has more than the other would be digits up to its end.
  have short {stem stem' digits' more : List Char} (ends : ∀ c ∈ stem'.getLast?, c.isDigit = false)
      (numeric : ∀ c ∈ more ++ digits', c.isDigit = true) (longer : stem' = stem ++ more) :
      more = [] := by
    by_contra some
    have last := List.getLast_mem some
    have digit := numeric _ (List.mem_append_left _ last)
    rw [ends _ (by simp [longer, List.getLast?_eq_some_getLast some])] at digit
    contradiction
  rcases List.append_eq_append_iff.mp same with ⟨more, longer, rest⟩ | ⟨more, longer, rest⟩
  · obtain rfl := short ends' (rest ▸ numeric) longer
    exact ⟨by simpa using longer.symm, by simpa using rest⟩
  · obtain rfl := short ends (rest ▸ numeric') longer
    exact ⟨by simpa using longer, by simpa using rest.symm⟩

theorem isDigit_of_mem_toString {n : ℕ} {c : Char} (member : c ∈ (toString n).toList) :
    c.isDigit = true := by
  rw [Nat.toString_eq_repr, Nat.toList_repr] at member
  exact Nat.isDigit_of_mem_toDigits (by decide) (by decide) member

theorem toString_injective : Function.Injective (toString : ℕ → String) := by
  intro n m same
  have digits : Nat.toDigits 10 n = Nat.toDigits 10 m := by
    simpa only [Nat.toString_eq_repr, Nat.toList_repr] using congrArg String.toList same
  rw [← Nat.ofDigitChars_ten_toDigits (n := n), digits, Nat.ofDigitChars_ten_toDigits]

/-- All values are distinct if those under each key are and equal values have one key. -/
theorem nodup_map_of_filter {α β κ : Type} [DecidableEq κ] {list : List α} {f : α → β}
    (key : α → κ) (keyed : ∀ x ∈ list, ∀ y ∈ list, f x = f y → key x = key y)
    (each : ∀ k, ((list.filter fun x => key x = k).map f).Nodup) : (list.map f).Nodup := by
  induction list with
  | nil => exact .nil
  | cons x rest ih =>
    refine List.nodup_cons.mpr ⟨fun again => ?_, ih ?_ fun k => ?_⟩
    · obtain ⟨y, member, same⟩ := List.mem_map.mp again
      have alike := keyed y (List.mem_cons_of_mem _ member) x (List.mem_cons_self ..) same
      have once := each (key x)
      rw [List.filter_cons_of_pos (by simp), List.map_cons, List.nodup_cons] at once
      exact once.1 (List.mem_map.mpr ⟨y, List.mem_filter.mpr ⟨member, decide_eq_true alike⟩, same⟩)
    · exact fun y inside z inside' =>
        keyed y (List.mem_cons_of_mem _ inside) z (List.mem_cons_of_mem _ inside')
    · exact (each k).sublist (((List.sublist_cons_self x rest).filter _).map f)

namespace Kind

theorem name_injective : Function.Injective name := by
  intro kind other same
  exact List.inj_on_of_nodup_map nodup_map_name (mem_all kind) (mem_all other)
    (congrArg String.toList same)

/-- The name of a kind ends in a letter. -/
theorem isDigit_last_name (kind : Kind) : ∀ c ∈ kind.name.toList.getLast?, c.isDigit = false := by
  have letter : kind.name.toList.getLast?.any Char.isDigit = false := by
    cases kind <;> rfl
  intro c last
  rwa [Option.mem_def.mp last, Option.any_some] at letter

/-- The name of a kind and a number behind it can be told apart. -/
theorem name_append_toString_inj {kind other : Kind} {n m : ℕ}
    (same : kind.name ++ toString n = other.name ++ toString m) : kind = other ∧ n = m := by
  have parts :
      kind.name.toList ++ (toString n).toList = other.name.toList ++ (toString m).toList := by
    simpa only [String.toList_append] using congrArg String.toList same
  obtain ⟨names, digits⟩ := append_digits_inj kind.isDigit_last_name other.isDigit_last_name
    (fun _ => isDigit_of_mem_toString) (fun _ => isDigit_of_mem_toString) parts
  exact ⟨name_injective (String.toList_injective names),
    toString_injective (String.toList_injective digits)⟩

/-- The kinds that are applied as plain functions. -/
theorem isFunctional_iff (kind : Kind) :
    kind.isFunctional = true ↔ kind ∈ [input, relu, flatten, softmax] := by
  cases kind <;> decide

end Kind

/-- The kind of layer that an id owns: that of its node, unless it is a plain function. -/
def Document.layer? (document : Document) (id : String) : Option Kind :=
  ((document.declaration? id).bind Node.kind?).filter fun kind =>
    kind ∉ [.input, .relu, .flatten, .softmax]

namespace Graph

variable (document : Document)

theorem layer?_eq (id : String) : document.layer? id =
    ((ofDocument document).kind? id).filter fun kind => !kind.isFunctional := by
  rw [Document.layer?, kind?, node?_ofDocument]
  congr 1
  funext kind
  rw [Bool.eq_iff_iff, Bool.not_eq_true', ← Bool.not_eq_true, Kind.isFunctional_iff]
  exact decide_eq_true_iff

theorem layers_ofDocument (kind : Kind) (order : List String) :
    (ofDocument document).layers kind order =
      order.countP fun id => document.layer? id = some kind := by
  refine List.countP_congr fun id _ => ?_
  rw [decide_eq_true_iff, decide_eq_true_iff, layer?_eq, Option.filter_eq_some_iff]
  refine and_congr_right fun _ => ?_
  rw [Bool.not_eq_true']

/-- There is one name for every id of the list that owns a layer. -/
theorem owners_layerNames (order : List String) :
    ((ofDocument document).layerNames order).map (fun name => (name.nodeId, name.kind)) =
      order.filterMap fun id => (document.layer? id).map fun kind => (id, kind) := by
  have after (named : List Kind) :
      ((ofDocument document).layerNamesAfter named order).map
          (fun name => (name.nodeId, name.kind)) =
        order.filterMap fun id => (document.layer? id).map fun kind => (id, kind) := by
    induction order generalizing named with
    | nil => rfl
    | cons id rest ih =>
      rw [layerNamesAfter, List.filterMap_cons, layer?_eq]
      cases (ofDocument document).kind? id with
      | none => exact ih named
      | some kind =>
        dsimp only
        rw [Option.filter_some]
        cases functional : kind.isFunctional with
        | true => simpa using ih named
        | false => simpa using ih (kind :: named)
  exact after []

theorem nodup_texts_layerNames (graph : Graph) (order : List String) :
    ((graph.layerNames order).map LayerName.text).Nodup := by
  apply nodup_map_of_filter LayerName.kind
  · exact fun name _ other _ same => (Kind.name_append_toString_inj same).1
  · intro kind
    rw [texts_layerNames]
    refine List.Nodup.map (fun _ _ same => ?_) (List.nodup_range' ..)
    exact (Kind.name_append_toString_inj same).2

/-- Along any list of ids, every id that owns a layer gets a name wherever it stands. The names of
one kind are numbered from one in this order, and no two names of layers are equal. -/
theorem layerNames_distinct (order : List String) :
    ((ofDocument document).layerNames order).map (fun name => (name.nodeId, name.kind)) =
      order.filterMap (fun id => (document.layer? id).map fun kind => (id, kind)) ∧
    (∀ kind, (((ofDocument document).layerNames order).filter fun name => name.kind = kind).map
        LayerName.text =
      (List.range' 1 (order.countP fun id => document.layer? id = some kind)).map
        fun number => kind.name ++ toString number) ∧
    (((ofDocument document).layerNames order).map LayerName.text).Nodup := by
  refine ⟨owners_layerNames document order, fun kind => ?_, nodup_texts_layerNames _ order⟩
  rw [texts_layerNames, layers_ofDocument]

end Graph

end LayerGraph
