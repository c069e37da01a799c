import LayerGraph.NodeRules
import LayerGraph.Proofs.Lookup
import LayerGraph.Proofs.Number.Value

/-!
# What the rules for nodes accept

A node passes the rules exactly if it is configured for some kind: it has an id, its type is the
kind's name, the required parameters are set, and those with a domain lie in it.
-/

namespace LayerGraph

namespace Kind

theorem nodup_map_name : (all.map fun kind => kind.name.toList).Nodup := by
  decide +kernel

/-- A text names a kind if it is the kind's name but for the case of ASCII letters. -/
theorem ofName?_eq_some_iff {text : String} {kind : Kind} :
    ofName? text = some kind ↔ kind.name.toList = text.toList.map Char.toLower := by
  constructor
  · intro found
    simpa using List.find?_some found
  · intro same
    rw [ofName?, ← same]
    exact find?_key_eq_some nodup_map_name (mem_all kind)

end Kind

namespace Params

def Sets (params : Params) (name : String) : Prop :=
  ∃ x, Table.get? name params.members = some x ∧ x ≠ .null

def Positive (params : Params) (name : String) : Prop :=
  ∃ n, params.integer? name = some n ∧ 0 < n

theorem get?_eq_some_iff {params : Params} {name : String} {x : Json.Value} :
    params.get? name = some x ↔ Table.get? name params.members = some x ∧ x ≠ .null := by
  unfold get?
  split
  · rename_i found
    simp [found, eq_comm]
  · rename_i other
    constructor
    · intro found
      exact ⟨found, fun null => other (null ▸ found)⟩
    · exact And.left

theorem isSet_iff {params : Params} {name : String} :
    params.isSet name = true ↔ params.Sets name := by
  simp only [isSet, Option.isSome_iff_exists, get?_eq_some_iff, Sets]

theorem integer?_eq_some_iff {params : Params} {name : String} {n : Int64} :
    params.integer? name = some n ↔
      ∃ number, params.get? name = some (.number number) ∧ number.integer? = some n := by
  unfold integer? number?
  split
  · rename_i number set
    simp [set]
  · rename_i other
    simp only [Option.bind_none, reduceCtorEq, false_iff]
    rintro ⟨number, set, _⟩
    exact other number set

end Params

namespace Node

structure Configured (node : Node) (kind : Kind) : Prop where
  named : node.id ≠ ""
  known : kind.name.toList = node.typeName.toList.map Char.toLower
  required : ∀ name ∈ kind.schema.required, node.params.Sets name
  linear : kind = .linear →
    ∀ name ∈ ["in_features", "out_features"], node.params.Positive name
  conv2d : kind = .conv2d →
    ∀ name ∈ ["in_channels", "out_channels", "kernel_size"], node.params.Positive name
  dropout : kind = .dropout → ∀ x, Table.get? "p" node.params.members = some x → x ≠ .null →
    ∃ number, x = .number number ∧ 0 ≤ number.value ∧ number.value < 1

theorem missingParams_eq_nil_iff {kind : Kind} {params : Params} :
    missingParams kind params = [] ↔ ∀ name ∈ kind.schema.required, params.Sets name := by
  simp [missingParams, ← Params.isSet_iff]

theorem positiveDefects_eq_nil_iff {params : Params} {name : String} :
    positiveDefects params name = [] ↔ (params.Sets name → params.Positive name) := by
  simp only [Params.Positive, Params.integer?_eq_some_iff, ← Params.isSet_iff, Params.isSet]
  unfold positiveDefects
  split
  · rename_i unset
    simp [unset]
  · rename_i number set
    cases integer : number.integer? <;> simp [set, integer]
  · rename_i other set
    simpa [set] using fun _ number same => absurd same (other number)

theorem probabilityDefects_eq_nil_iff {params : Params} {name : String} :
    probabilityDefects params name = [] ↔
      ∀ x, Table.get? name params.members = some x → x ≠ .null →
        ∃ number, x = .number number ∧ 0 ≤ number.value ∧ number.value < 1 := by
  simp only [← and_imp, ← Params.get?_eq_some_iff]
  unfold probabilityDefects
  split
  · rename_i unset
    simp [unset]
  · rename_i number set
    simp [set, Json.Number.inUnitInterval_toBinary64]
  · rename_i other set
    simpa [set] using fun number same => absurd same (other number)

theorem domainDefects_eq_nil_iff {kind : Kind} {params : Params}
    (required : ∀ name ∈ kind.schema.required, params.Sets name) :
    domainDefects kind params = [] ↔
      (kind = .linear → ∀ name ∈ ["in_features", "out_features"], params.Positive name) ∧
      (kind = .conv2d →
        ∀ name ∈ ["in_channels", "out_channels", "kernel_size"], params.Positive name) ∧
      (kind = .dropout → ∀ x, Table.get? "p" params.members = some x → x ≠ .null →
        ∃ number, x = .number number ∧ 0 ≤ number.value ∧ number.value < 1) := by
  have set (name : String) (member : name ∈ kind.schema.required) :
      positiveDefects params name = [] ↔ params.Positive name := by
    rw [positiveDefects_eq_nil_iff]
    exact imp_iff_right (required name member)
  unfold domainDefects
  split
  · simp [set "in_features" (by simp [Kind.schema, Kind.needing, Kind.layer]),
      set "out_features" (by simp [Kind.schema, Kind.needing, Kind.layer])]
  · simp [set "in_channels" (by simp [Kind.schema, Kind.convolution, Kind.layer]),
      set "out_channels" (by simp [Kind.schema, Kind.convolution, Kind.layer]),
      set "kernel_size" (by simp [Kind.schema, Kind.convolution, Kind.layer])]
  · simpa using probabilityDefects_eq_nil_iff
  · rename_i linear conv2d dropout
    exact iff_of_true rfl ⟨fun h => absurd h linear, fun h => absurd h conv2d,
      fun h => absurd h dropout⟩

/-- A node passes exactly if it is configured for a kind. -/
theorem diagnostics_eq_nil_iff {node : Node} :
    node.diagnostics = [] ↔ ∃ kind, node.Configured kind := by
  unfold diagnostics
  split
  · rename_i unnamed
    simp only [List.cons_ne_nil, false_iff]
    rintro ⟨kind, configured⟩
    exact configured.named unnamed
  · rename_i named
    split
    · rename_i unknown
      simp only [List.cons_ne_nil, false_iff]
      rintro ⟨kind, configured⟩
      rw [kind?, Kind.ofName?_eq_some_iff.mpr configured.known] at unknown
      contradiction
    · rename_i kind known
      rw [List.map_eq_nil_iff, List.append_eq_nil_iff, missingParams_eq_nil_iff]
      have name := Kind.ofName?_eq_some_iff.mp known
      constructor
      · rintro ⟨required, domain⟩
        obtain ⟨linear, conv2d, dropout⟩ := (domainDefects_eq_nil_iff required).mp domain
        exact ⟨kind, named, name, required, linear, conv2d, dropout⟩
      · rintro ⟨other, configured⟩
        have same := Kind.ofName?_eq_some_iff.mpr configured.known
        obtain rfl : kind = other := Option.some.inj (known.symm.trans same)
        exact ⟨configured.required, (domainDefects_eq_nil_iff configured.required).mpr
          ⟨configured.linear, configured.conv2d, configured.dropout⟩⟩

end Node

end LayerGraph
