import LayerGraph.Diagnostic
import LayerGraph.Document

/-!
# Rules for single nodes

What the catalog asks of a node: an id, a known type, the required parameters, and for some kinds
that parameters lie in their domain.
-/

namespace LayerGraph

namespace Node

def missingParams (kind : Kind) (params : Params) : List Defect :=
  (kind.schema.required.filter fun name => !params.isSet name).map .missingParam

def positiveDefects (params : Params) (name : String) : List Defect :=
  match params.get? name with
  | none => []
  | some (.number x) => if x.integer?.any (0 < ·) then [] else [.notPositive name]
  | some _ => [.notANumber name]

/-- A parameter that is set has to be a number in `[0, 1)`. -/
def probabilityDefects (params : Params) (name : String) : List Defect :=
  match params.get? name with
  | none => []
  | some (.number x) => if x.toBinary64.inUnitInterval then [] else [.notAProbability]
  | some _ => [.notANumber name]

def domainDefects (kind : Kind) (params : Params) : List Defect :=
  match kind with
  | .linear => ["in_features", "out_features"].flatMap (positiveDefects params)
  | .conv2d => ["in_channels", "out_channels", "kernel_size"].flatMap (positiveDefects params)
  | .dropout => probabilityDefects params "p"
  | _ => []

/-- All that is wrong with a node taken by itself. Without an id or a known type there is nothing
more to check. -/
def diagnostics (node : Node) : List Diagnostic :=
  if node.id = "" then [.ofGraph .missingId]
  else
    match node.kind? with
    | none => [.ofNode node.id (.unknownType node.typeName)]
    | some kind =>
      (missingParams kind node.params ++ domainDefects kind node.params).map (.ofNode node.id)

end Node

end LayerGraph
