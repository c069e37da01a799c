import LayerGraph.Document
import LayerGraph.Json.Decoder

/-!
# Decoding documents

Documents are decoded leniently: fields may be missing or null, and ids and types need not be
strings. So most malformed nodes are left to the rules for nodes. Only a node whose data or
parameters are of another form than an object spoils its document.
-/

namespace LayerGraph

open Json (Value Decoder)

/-- A value as text: null is empty, a string stands for itself, anything else for its compact
text. -/
def Json.Value.lenientText : Value → String
  | .null => ""
  | .string text => text
  | x => x.text

namespace Document

open Json.Decoder (Field)

def lenientString : Decoder String :=
  Decoder.any.map Value.lenientText

/-- The parameters of a node; null is none. -/
def paramsDecoder : Decoder Params :=
  (Decoder.table.map Params.mk).orNull .empty

/-- The data of a node, of which only the parameters count; null is no data. -/
def dataDecoder : Decoder Params :=
  (Decoder.record "struct NodeData" [Field.of "params" paramsDecoder fun params _ => params]
    .empty).orNull .empty

def nodeDecoder : Decoder Node :=
  Decoder.record "struct NodeDocument" [
    Field.of "id" lenientString fun id node => { node with id },
    Field.of "type" lenientString fun typeName node => { node with typeName },
    Field.of "data" dataDecoder fun params node => { node with params }]
    ⟨"", "", .empty⟩

def edgeDecoder : Decoder Edge :=
  Decoder.record "struct EdgeDocument" [
    Field.of "source" lenientString fun source edge => { edge with source },
    Field.of "target" lenientString fun target edge => { edge with target }]
    ⟨"", ""⟩

def decoder : Decoder Document :=
  Decoder.record "struct GraphDocument" [
    Field.of "nodes" (nodeDecoder.list.orNull []) fun nodes document => { document with nodes },
    Field.of "edges" (edgeDecoder.list.orNull []) fun edges document => { document with edges }]
    .empty

def ofText (text : String) : Except Json.Error Document :=
  decoder.decode text

def ofJson (x : Value) : Except Json.Error Document :=
  decoder.decodeValue x

end Document

def Node.ofText (text : String) : Except Json.Error Node :=
  Document.nodeDecoder.decode text

def Params.ofText (text : String) : Except Json.Error Params :=
  (Decoder.table.map Params.mk).decode text

def Json.Value.ofText (text : String) : Except Json.Error Value :=
  Decoder.any.decode text

end LayerGraph
