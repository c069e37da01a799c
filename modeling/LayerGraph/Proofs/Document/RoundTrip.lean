import LayerGraph.Proofs.Document.Decode
import LayerGraph.Proofs.Json.Decoded
import LayerGraph.Proofs.Json.RoundTrip

/-!
# Documents through their texts

The parameters of a document that was read are sorted and fit into the text of the document, one
level of lists and objects for each level that was read. So the text of the document is read again,
as the same document.
-/

namespace LayerGraph

open Json (Value)
open Json.Decoder

def Params.Normal (nesting : Nat) (params : Params) : Prop :=
  params.toJson.Normal nesting

theorem Params.normal_empty (nesting : Nat) : Params.empty.Normal (nesting + 1) :=
  ⟨.object nofun, Value.sorted_object_eq_self .nil nofun⟩

namespace Document

theorem ensures_paramsDecoder (nesting : Nat) :
    paramsDecoder.Ensures (nesting + 1) (Params.Normal (nesting + 1)) := by
  refine Ensures.orNull ?_ (Params.normal_empty nesting)
  exact ensures_table.map fun _ normal => normal

theorem ensures_dataDecoder (nesting : Nat) :
    dataDecoder.Ensures (nesting + 2) (Params.Normal (nesting + 1)) := by
  refine Ensures.orNull (ensures_record ?_ (Params.normal_empty nesting))
    (Params.normal_empty nesting)
  refine List.forall_mem_singleton.mpr ?_
  exact (ensures_paramsDecoder nesting).field fun _ _ normal _ => normal

theorem ensures_nodeDecoder (nesting : Nat) :
    nodeDecoder.Ensures (nesting + 3) fun node => node.params.Normal (nesting + 1) := by
  refine ensures_record (P := fun node : Node => node.params.Normal (nesting + 1)) ?_
    (Params.normal_empty nesting)
  have text := ensures_true lenientString (nesting + 2)
  simp only [List.forall_mem_cons]
  exact ⟨text.field fun _ _ _ normal => normal, text.field fun _ _ _ normal => normal,
    (ensures_dataDecoder nesting).field fun _ _ normal _ => normal, nofun⟩

/-- The nodes of a document that was read have normal parameters. -/
theorem ensures_decoder (nesting : Nat) : decoder.Ensures (nesting + 5) fun document =>
    ∀ node ∈ document.nodes, node.params.Normal (nesting + 1) := by
  refine ensures_record
    (P := fun document : Document => ∀ node ∈ document.nodes, node.params.Normal (nesting + 1)) ?_
    fun _ member => absurd member List.not_mem_nil
  have nodes : (nodeDecoder.list.orNull []).Ensures (nesting + 4) fun nodes =>
      ∀ node ∈ nodes, node.params.Normal (nesting + 1) :=
    (ensures_nodeDecoder nesting).list.orNull fun _ member => absurd member List.not_mem_nil
  have edges := ensures_true (edgeDecoder.list.orNull []) (nesting + 4)
  simp only [List.forall_mem_cons]
  exact ⟨nodes.field fun _ _ normal _ => normal, edges.field fun _ _ _ normal => normal, nofun⟩

variable {document : Document} {nesting : Nat}

theorem fits_toJson (normal : ∀ node ∈ document.nodes, node.params.Normal (nesting + 1)) :
    document.toJson.Fits (nesting + 5) := by
  have node (node : Node) (member : node ∈ document.nodes) : node.toJson.Fits (nesting + 3) := by
    simp [Node.toJson, (normal node member).fits]
  simpa [toJson, Edge.toJson] using node

theorem integral_toJson (integral : ∀ node ∈ document.nodes, node.params.toJson.Integral) :
    document.toJson.Integral := by
  have node (node : Node) (member : node ∈ document.nodes) : node.toJson.Integral := by
    simp [Node.toJson, integral node member]
  simpa [toJson, Edge.toJson] using node

theorem distinct_toJson (normal : ∀ node ∈ document.nodes, node.params.Normal nesting) :
    document.toJson.Distinct := by
  have node (node : Node) (member : node ∈ document.nodes) : node.toJson.Distinct := by
    simp [Node.toJson, (normal node member).distinct]
  simpa [toJson, Edge.toJson] using node

theorem ofValue_paramsDecoder {params : Params} (normal : params.Normal nesting) :
    paramsDecoder.ofValue params.toJson.sorted = .ok params := by
  rw [normal.sorted]
  rfl

theorem ofValue_dataDecoder {params : Params} (normal : params.Normal nesting) :
    dataDecoder.ofValue (Value.object [("params", params.toJson)]).sorted = .ok params := by
  unfold dataDecoder
  rw [orNull_ofValue (by simp [Value.sorted_object]),
    record_ofValue_sorted (List.pairwise_singleton ..) (by simp)]
  simp [Value.sortedMember_eq, changeByName_head (ofValue_paramsDecoder normal)]

theorem ofValue_lenientString (text : String) :
    lenientString.ofValue (Value.string text).sorted = .ok text :=
  rfl

theorem ofValue_nodeDecoder {node : Node} (normal : node.params.Normal nesting) :
    nodeDecoder.ofValue node.toJson.sorted = .ok node := by
  unfold nodeDecoder Node.toJson
  rw [record_ofValue_sorted (by simp [apart_of]) (by simp)]
  simp [Value.sortedMember_eq, changeByName_tail, changeByName_head (ofValue_lenientString _),
    changeByName_head (ofValue_dataDecoder normal)]

theorem ofValue_edgeDecoder (edge : Edge) : edgeDecoder.ofValue edge.toJson.sorted = .ok edge := by
  unfold edgeDecoder Edge.toJson
  rw [record_ofValue_sorted (by simp [apart_of]) (by simp)]
  simp [Value.sortedMember_eq, changeByName_tail, changeByName_head (ofValue_lenientString _)]

theorem ofValue_decoder (normal : ∀ node ∈ document.nodes, node.params.Normal nesting) :
    decoder.ofValue document.toJson.sorted = .ok document := by
  have nodes : (nodeDecoder.list.orNull []).ofValue
      (Value.array (document.nodes.map Node.toJson)).sorted = .ok document.nodes := by
    rw [orNull_ofValue (by simp [Value.sorted_array])]
    exact list_ofValue_sorted fun node member => ofValue_nodeDecoder (normal node member)
  have edges : (edgeDecoder.list.orNull []).ofValue
      (Value.array (document.edges.map Edge.toJson)).sorted = .ok document.edges := by
    rw [orNull_ofValue (by simp [Value.sorted_array])]
    exact list_ofValue_sorted fun edge _ => ofValue_edgeDecoder edge
  unfold decoder toJson
  rw [record_ofValue_sorted (by simp [apart_of]) (by simp)]
  simp [Value.sortedMember_eq, changeByName_tail, changeByName_head nodes, changeByName_head edges]

/-- A document that was read is read from its text again, if no number in its parameters is a
floating-point one. So writing and reading a second time changes nothing. -/
theorem ofText_text {text : String} {document : Document} (parsed : ofText text = .ok document)
    (integral : ∀ node ∈ document.nodes, node.params.toJson.Integral) :
    ofText document.text = .ok document ∧
      ∀ again, ofText document.text = .ok again → again.text = document.text := by
  obtain ⟨r, read, -⟩ := decode_eq_ok_iff.mp parsed
  have normal := ensures_decoder 122 read
  have fits := fits_toJson normal
  have integral := integral_toJson integral
  have printed := fits.decode_text integral
  have distinct := fits.distinctNames integral (distinct_toJson normal)
  have again : ofText document.text = .ok document :=
    (ofText_iff_ofJson printed distinct).mpr (decodeValue_eq_ok_iff.mpr (ofValue_decoder normal))
  refine ⟨again, fun other same => ?_⟩
  cases again.symm.trans same
  rfl

/-- Records as lists, a type and ids that are no strings, characters to be escaped, and parameters
out of order. -/
def looseText : String :=
  "[[[\"a\\\"\\u0001😀\",\x7b\"of\":[1,null]\x7d,[\x7b\"z\":-5,\"b\":18446744073709551615\x7d]]," ++
    "\x7b\"id\":7,\"more\":[2],\"type\":\"relu\",\"data\":null\x7d],[\x7b\"target\":7\x7d]]"

def looseGraph : Value :=
  .array [
    .array [
      .array [.string "a\"\x01😀", .object [("of", .array [.number (.unsigned 1), .null])],
        .array [.object [
          ("z", .number (.signed (-5))), ("b", .number (.unsigned 18446744073709551615))]]],
      .object [("id", .number (.unsigned 7)), ("more", .array [.number (.unsigned 2)]),
        ("type", .string "relu"), ("data", .null)]],
    .array [.object [("target", .number (.unsigned 7))]]]

def looseDocument : Document :=
  ⟨[⟨"a\"\x01😀", "\x7b\"of\":[1,null]\x7d",
      ⟨[("b", .number (.unsigned 18446744073709551615)), ("z", .number (.signed (-5)))]⟩⟩,
    ⟨"7", "relu", .empty⟩], [⟨"", "7"⟩]⟩

theorem ofText_text_loose :
    ofText looseText = .ok looseDocument ∧
      (∀ node ∈ looseDocument.nodes, node.params.toJson.Integral) ∧
      ofText looseDocument.text = .ok looseDocument ∧
      ∀ again, ofText looseDocument.text = .ok again → again.text = looseDocument.text := by
  have printed : looseText = looseGraph.text := by decide +kernel
  have parsed : ofText looseText = .ok looseDocument := by
    have fits : looseGraph.Fits Json.maxNesting := by
      simp [looseGraph, Json.maxNesting, Json.Number.Genuine]
    have integral : looseGraph.Integral := by simp [looseGraph]
    have distinct := fits.distinctNames integral (by simp [looseGraph])
    rw [printed, ofText_iff_ofJson (fits.decode_text integral) distinct]
    rfl
  have integral : ∀ node ∈ looseDocument.nodes, node.params.toJson.Integral := by
    refine List.forall_mem_cons.mpr ⟨.object ?_, List.forall_mem_singleton.mpr (.object nofun)⟩
    exact List.forall_mem_cons.mpr ⟨.unsigned _, List.forall_mem_singleton.mpr (.signed _)⟩
  exact ⟨parsed, integral, ofText_text parsed integral⟩

end Document

end LayerGraph
