import LayerGraph.Analysis
import LayerGraph.Document.Decode

/-!
# Reports

What is told about a document that comes as text: a verdict with the lines to show, the same with
every diagnostic in full, and the order of execution. A text that is no document counts as one
defect.
-/

namespace LayerGraph

open Json (Value)

def Analysis.ofText (text : String) : Analysis :=
  match Document.ofText text with
  | .ok document => document.analyze
  | .error error => .failed [.ofGraph (.unreadable error)]

structure Verdict where
  valid : Bool
  errors : List String
  totalWeights : UInt64
  deriving DecidableEq, Repr

namespace Verdict

/-- The verdict of an analysis. An invalid document has no weights. -/
def ofAnalysis (analysis : Analysis) : Verdict :=
  ⟨analysis.isValid, analysis.lines, if analysis.isValid then analysis.totalWeights else 0⟩

def ofText (text : String) : Verdict :=
  ofAnalysis (.ofText text)

def members (verdict : Verdict) : List (String × Value) :=
  [("valid", .bool verdict.valid), ("errors", .strings verdict.errors),
   ("total_params", .word verdict.totalWeights)]

def toJson (verdict : Verdict) : Value :=
  .object verdict.members

end Verdict

structure Report where
  verdict : Verdict
  diagnostics : List Diagnostic
  deriving DecidableEq, Repr

namespace Report

def ofText (text : String) : Report :=
  let analysis := Analysis.ofText text
  ⟨.ofAnalysis analysis, analysis.diagnostics⟩

/-- A report as JSON. The messages of its diagnostics are the lines to show. -/
def toJson (report : Report) : Value :=
  .object (report.verdict.members ++
    [("diagnostics", .array (report.diagnostics.map (Diagnostic.toJsonWith Diagnostic.line)))])

end Report

inductive OrderReport where
  | success (order : List String) (layerNames : List LayerName)
  | errors (diagnostics : List Diagnostic)
  deriving DecidableEq, Repr

namespace OrderReport

def ofText (text : String) : OrderReport :=
  let analysis := Analysis.ofText text
  if analysis.isValid then .success analysis.order analysis.layerNames
  else .errors analysis.diagnostics

def toJson : OrderReport → Value
  | .success order layerNames =>
    .object [
      ("status", .string "success"),
      ("order", .strings order),
      ("layer_names", .array (layerNames.map LayerName.toJson))]
  | .errors diagnostics =>
    .object [
      ("status", .string "errors"),
      ("errors", .array (diagnostics.map (Diagnostic.toJsonWith Diagnostic.line)))]

end OrderReport

end LayerGraph
