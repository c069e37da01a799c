import LayerGraph.Report
import LayerGraph.Text.Blank

/-!
# The line service

A client sends commands as JSON objects, one a line, and gets one event a line. Every line is
answered by itself.
-/

namespace LayerGraph

open Json (Value Decoder)

structure Request where
  command : Option String
  graph : Value
  deriving Repr

inductive Event where
  | ready
  | validationSuccess (nodeCount : Nat) (totalWeights : UInt64)
  | validationError (diagnostics : List Diagnostic)
  | executionOrder (order : List String) (layerNames : List LayerName)
  | catalog
  | invalidRequest (error : Json.Error)
  | unknownCommand (command : Option String)
  deriving DecidableEq, Repr

namespace Request

def decoder : Decoder Request :=
  Decoder.record "struct Request" [
    .of "command" ((Decoder.string.map some).orNull none) fun command request =>
      { request with command },
    .of "graph" .any fun graph request => { request with graph }]
    ⟨none, .null⟩

/-- The document of a request; without a graph it is the empty one. -/
def document (request : Request) : Except Json.Error Document :=
  match request.graph with
  | .null => .ok .empty
  | graph => Document.ofJson graph

def onDocument (request : Request) (answer : Document → Event) : Event :=
  match request.document with
  | .ok document => answer document
  | .error error => .validationError [.ofGraph (.unreadable error)]

def answer (request : Request) : Event :=
  match request.command with
  | some "validate" =>
    request.onDocument fun document =>
      let analysis := document.analyze
      if analysis.isValid then .validationSuccess document.nodes.length analysis.totalWeights
      else .validationError analysis.diagnostics
  | some "execution_order" =>
    request.onDocument fun document =>
      let analysis := document.analyze
      if analysis.isValid then .executionOrder analysis.order analysis.layerNames
      else .validationError analysis.diagnostics
  | some "catalog" => .catalog
  | command => .unknownCommand command

end Request

namespace Event

def parts : Event → String × List (String × Value)
  | .ready => ("ready", [("message", .string "Graph validator ready")])
  | .validationSuccess nodeCount totalWeights =>
    ("validation_success",
      [("message", .string "Graph is valid"), ("node_count", .nat nodeCount),
       ("total_params", .word totalWeights)])
  | .validationError diagnostics =>
    ("validation_error", [("errors", .strings (diagnostics.map Diagnostic.line))])
  | .executionOrder order layerNames =>
    ("execution_order",
      [("order", .strings order), ("layer_names", .array (layerNames.map LayerName.toJson))])
  | .catalog => ("catalog", [("nodes", catalogJson)])
  | .invalidRequest error => ("error", [("message", .string ("Invalid JSON: " ++ error.message))])
  | .unknownCommand command =>
    ("error", [("message", .string ("Unknown command: " ++ command.getD "<none>"))])

def toJson (event : Event) : Value :=
  .object [("event", .string event.parts.1), ("data", .object event.parts.2)]

def text (event : Event) : String :=
  event.toJson.text

end Event

namespace Service

/-- Answers one line. Blanks around it do not count. -/
def answerLine (line : List Char) : Event :=
  match Request.decoder.decode (String.ofList (Text.trim line)) with
  | .ok request => request.answer
  | .error error => .invalidRequest error

def prepend (byte : UInt8) : List (List UInt8) → List (List UInt8)
  | [] => [[byte]]
  | line :: rest => (byte :: line) :: rest

/-- The lines of an input. A line ends with a line feed, which a carriage return may precede; the
last one may lack it. -/
def lines : List UInt8 → List (List UInt8)
  | [] => []
  | 13 :: 10 :: rest => [] :: lines rest
  | 10 :: rest => [] :: lines rest
  | byte :: rest => prepend byte (lines rest)

def decodeLine (line : List UInt8) : Option (List Char) :=
  (String.fromUTF8? ⟨line.toArray⟩).map String.toList

structure Session where
  events : List Event
  complete : Bool
  deriving DecidableEq, Repr

/-- Answers the lines that are not blank, up to one that is not UTF-8. -/
def answerLines : List (List UInt8) → Session
  | [] => ⟨[], true⟩
  | line :: rest =>
    match decodeLine line with
    | none => ⟨[], false⟩
    | some chars =>
      let session := answerLines rest
      if (Text.trim chars).isEmpty then session
      else { session with events := answerLine chars :: session.events }

def serve (input : List UInt8) : Session :=
  let session := answerLines (lines input)
  { session with events := .ready :: session.events }

def encodingMessage : String :=
  "stream did not contain valid UTF-8"

end Service

end LayerGraph
