import LayerGraph.Document.Decode
import LayerGraph.Proofs.Json.Agreement

/-!
# Documents from texts and from values

The decoder of documents is put together from parts that all agree on texts and values.
-/

namespace LayerGraph

namespace Document

open Json (Value DistinctNames)
open Json.Decoder

theorem agrees_lenientString : lenientString.Agrees :=
  agrees_any.map _

theorem agrees_paramsDecoder : paramsDecoder.Agrees :=
  (agrees_table.map _).orNull _

theorem agrees_dataDecoder : dataDecoder.Agrees := by
  refine (agrees_record _ ?_ (List.pairwise_singleton ..) _).orNull _
  simp [agrees_paramsDecoder.field]

theorem agrees_nodeDecoder : nodeDecoder.Agrees := by
  refine agrees_record _ ?_ (by simp [apart_of]) _
  simp [agrees_lenientString.field, agrees_dataDecoder.field]

theorem agrees_edgeDecoder : edgeDecoder.Agrees := by
  refine agrees_record _ ?_ (by simp [apart_of]) _
  simp [agrees_lenientString.field]

theorem agrees_decoder : decoder.Agrees := by
  have nodes := agrees_nodeDecoder.list.orNull []
  have edges := agrees_edgeDecoder.list.orNull []
  refine agrees_record _ ?_ (by simp [apart_of]) _
  simp [nodes.field, edges.field]

/-- Where a text without repeated names has a value, it describes the document that the value
describes. -/
theorem ofText_iff_ofJson {text : String} {v : Value} (parsed : Value.ofText text = .ok v)
    (distinct : DistinctNames text) {document : Document} :
    ofText text = .ok document ↔ ofJson v = .ok document :=
  agrees_decoder.decode_iff parsed distinct

end Document

end LayerGraph
