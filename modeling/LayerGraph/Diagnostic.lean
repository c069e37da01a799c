import LayerGraph.Json.Fault
import LayerGraph.Shape

/-!
# Diagnostics

What can be wrong with a graph. A defect is a cause; its code, stage and wording follow from it.
-/

namespace LayerGraph

open Json (Value)

inductive Stage where
  | parsing | nodes | structural | scheduling | shapes
  deriving DecidableEq, Repr

def Stage.name : Stage → String
  | .parsing => "Parse"
  | .nodes => "Node"
  | .structural => "Structure"
  | .scheduling => "Schedule"
  | .shapes => "Shape"

inductive Defect where
  | unreadable (error : Json.Error)
  | noNodes
  | missingId
  | unknownType (typeName : String)
  | missingParam (name : String)
  | notANumber (name : String)
  | notPositive (name : String)
  | notAProbability
  | noInput
  | severalInputs
  | repeatedId
  | unknownSource (id : String)
  | unknownTarget (id : String)
  | missingInputs (kind : Kind) (expected : Nat)
  | surplusInputs (kind : Kind) (actual expected : Nat)
  | cyclic
  | unschedulable
  | noShape (error : ShapeError)
  deriving DecidableEq, Repr

namespace Defect

def code : Defect → String
  | .unreadable _ => "P001"
  | .noNodes => "P002"
  | .missingId => "N001"
  | .unknownType _ => "N002"
  | .missingParam _ => "N003"
  | .notANumber _ | .notPositive _ | .notAProbability => "N004"
  | .noInput | .severalInputs => "S001"
  | .repeatedId => "S002"
  | .unknownSource _ | .unknownTarget _ => "S003"
  | .missingInputs _ _ | .surplusInputs _ _ _ => "S004"
  | .cyclic => "S005"
  | .unschedulable => "T001"
  | .noShape _ => "I001"

def stage : Defect → Stage
  | .unreadable _ | .noNodes => .parsing
  | .missingId | .unknownType _ | .missingParam _ | .notANumber _ | .notPositive _
  | .notAProbability => .nodes
  | .noInput | .severalInputs | .repeatedId | .unknownSource _ | .unknownTarget _
  | .missingInputs _ _ | .surplusInputs _ _ _ | .cyclic => .structural
  | .unschedulable => .scheduling
  | .noShape _ => .shapes

def message : Defect → String
  | .unreadable error => "Failed to parse graph JSON: " ++ error.message
  | .noNodes => "Graph has no nodes"
  | .missingId => "Node missing id"
  | .unknownType typeName => "Invalid node type " ++ typeName
  | .missingParam name => "Missing required parameter: " ++ name
  | .notANumber name => name ++ " must be a number"
  | .notPositive name => name ++ " must be a positive integer"
  | .notAProbability => "dropout probability must be in [0, 1)"
  | .noInput => "Graph must have at least one Input node"
  | .severalInputs => "Graph can only have one Input node"
  | .repeatedId => "Duplicate node id"
  | .unknownSource id => "Edge references unknown source node: " ++ id
  | .unknownTarget id => "Edge references unknown target node: " ++ id
  | .missingInputs kind expected => kind.name ++ " requires " ++ toString expected ++ " input(s)"
  | .surplusInputs kind actual expected =>
    kind.name ++ " has too many inputs (" ++ toString actual ++ " > " ++ toString expected ++ ")"
  | .cyclic => "Graph contains cycles (must be DAG)"
  | .unschedulable => "Cannot perform topological sort"
  | .noShape error => "Shape inference failed - " ++ error.message

end Defect

structure Diagnostic where
  defect : Defect
  nodeId : Option String
  deriving DecidableEq, Repr

namespace Diagnostic

def ofGraph (defect : Defect) : Diagnostic :=
  ⟨defect, none⟩

def ofNode (id : String) (defect : Defect) : Diagnostic :=
  ⟨defect, some id⟩

/-- The line shown to a user; it names the node. -/
def line (diagnostic : Diagnostic) : String :=
  match diagnostic.nodeId with
  | some id => "Node " ++ id ++ ": " ++ diagnostic.defect.message
  | none => diagnostic.defect.message

def toJsonWith (wording : Diagnostic → String) (diagnostic : Diagnostic) : Value :=
  .object [
    ("code", .string diagnostic.defect.code),
    ("stage", .string diagnostic.defect.stage.name),
    ("message", .string (wording diagnostic)),
    ("node_id", .string? diagnostic.nodeId)]

/-- A diagnostic as JSON; the message does not name the node. -/
def toJson : Diagnostic → Value :=
  toJsonWith fun diagnostic => diagnostic.defect.message

end Diagnostic

end LayerGraph
