import LayerGraph.Main
import LayerGraph.Proofs.Document.Decode
import LayerGraph.Proofs.Json.RoundTrip
import Mathlib.Data.List.TFAE

/-!
# The entry points

A document reaches an analysis as a text, read at once, or as a value inside a line that was read
before. On a text without repeated names all of them accept the same documents, and they report
the same.
-/

namespace LayerGraph

open Json (Value DistinctNames)

namespace Program

def checked (input : ByteArray) : Outcome :=
  Outcome.check ((textOf input).mapError Outcome.unreadableInput)

theorem outcome_check_dash : outcome ["check", "-"] = checked <$> readInput := by
  have command : Command.ofArgs? ["check", "-"] = some (.check "-") := by
    simp [Command.ofArgs?, Command.ofName?, Command.positional?]
  simp only [outcome, command, readText, if_true]
  funext world
  change EST.bind (EST.bind readInput _) _ world = EST.bind readInput _ world
  unfold EST.bind
  cases readInput world <;> rfl

theorem checked_toUTF8 (text : String) : checked text.toUTF8 = Outcome.check (.ok text) := by
  have utf8 : String.fromUTF8? text.toUTF8 = some text := dif_pos text.isValidUTF8
  simp only [checked, textOf, utf8, Except.mapError]

end Program

def Service.Asks (line : List Char) (command : String) (graph : Value) : Prop :=
  Request.decoder.decode (String.ofList (Text.trim line)) = .ok ⟨some command, graph⟩

/-- Everything reports the weights, the order and the names of one analysis. -/
structure Accepted (text : String) (graph : Value) (analysis : Analysis) : Prop where
  verdict : Verdict.ofText text = ⟨true, [], analysis.totalWeights⟩
  report : Report.ofText text = ⟨⟨true, [], analysis.totalWeights⟩, []⟩
  orderReport : OrderReport.ofText text = .success analysis.order analysis.layerNames
  check : Program.checked text.toUTF8 = ⟨0, Outcome.document analysis.toJson, ""⟩
  validate : ∀ line, Service.Asks line "validate" graph →
    ∃ nodeCount, Service.answerLine line = .validationSuccess nodeCount analysis.totalWeights
  executionOrder : ∀ line, Service.Asks line "execution_order" graph →
    Service.answerLine line = .executionOrder analysis.order analysis.layerNames

/-- Everything reports the diagnostics of one analysis, and shows them as the same lines. -/
structure Rejected (text : String) (graph : Value) (analysis : Analysis) : Prop where
  verdict : Verdict.ofText text = ⟨false, analysis.lines, 0⟩
  report : Report.ofText text = ⟨⟨false, analysis.lines, 0⟩, analysis.diagnostics⟩
  orderReport : OrderReport.ofText text = .errors analysis.diagnostics
  check : Program.checked text.toUTF8 = ⟨1, Outcome.document analysis.toJson,
    "\nGraph is invalid:\n" ++ String.join (analysis.lines.map fun line => "  - " ++ line ++ "\n")⟩
  validate : ∀ line, Service.Asks line "validate" graph →
    (Service.answerLine line).parts = ("validation_error", [("errors", .strings analysis.lines)])
  executionOrder : ∀ line, Service.Asks line "execution_order" graph →
    (Service.answerLine line).parts = ("validation_error", [("errors", .strings analysis.lines)])

/-- A text and a value describe the same documents to all entry points: every one accepts them or
none does, and they report the same. What the command reports is `Program.checked` of all that is
read from the standard input. -/
structure EntryPointsAgree (text : String) (graph : Value) : Prop where
  command : Program.outcome ["check", "-"] = Program.checked <$> Program.readInput
  documents : ∀ document, Document.ofText text = .ok document ↔ Document.ofJson graph = .ok document
  texts : [(Verdict.ofText text).valid = true,
    (Report.ofText text).verdict.valid = true,
    ∃ order layerNames, OrderReport.ofText text = .success order layerNames,
    (Program.checked text.toUTF8).code = 0].TFAE
  validate : ∀ line, Service.Asks line "validate" graph →
    ((∃ nodeCount totalWeights,
      Service.answerLine line = .validationSuccess nodeCount totalWeights) ↔
        (Verdict.ofText text).valid = true)
  executionOrder : ∀ line, Service.Asks line "execution_order" graph →
    ((∃ order layerNames, Service.answerLine line = .executionOrder order layerNames) ↔
      (Verdict.ofText text).valid = true)
  accepted : (Verdict.ofText text).valid = true →
    ∃ document, Document.ofText text = .ok document ∧ Accepted text graph document.analyze
  rejected : ∀ document, Document.ofText text = .ok document →
    (Verdict.ofText text).valid = false → Rejected text graph document.analyze

section

variable {text : String} {graph : Value} {document : Document}

theorem Analysis.ofText_eq (read : Document.ofText text = .ok document) :
    Analysis.ofText text = document.analyze := by
  rw [Analysis.ofText, read]

theorem Analysis.isValid_ofText_iff : (Analysis.ofText text).isValid = true ↔
    ∃ document, Document.ofText text = .ok document ∧ document.analyze.isValid = true := by
  cases read : Document.ofText text with
  | error error => simp [Analysis.ofText, read, Analysis.isValid, Analysis.failed]
  | ok document => simp [Analysis.ofText_eq read]

theorem OrderReport.isSuccess_ofText_iff :
    (∃ order layerNames, OrderReport.ofText text = .success order layerNames) ↔
      (Analysis.ofText text).isValid = true := by
  cases valid : (Analysis.ofText text).isValid <;> simp [OrderReport.ofText, valid]

theorem Program.code_checked_iff :
    (checked text.toUTF8).code = 0 ↔ (Analysis.ofText text).isValid = true := by
  rw [checked_toUTF8, Analysis.isValid_ofText_iff]
  cases read : Document.ofText text with
  | error error => simp [Outcome.check, read, Outcome.failed]
  | ok document => cases valid : document.analyze.isValid <;> simp [Outcome.check, read, valid]

theorem Service.Asks.answerLine {line : List Char} {command : String}
    (asks : Service.Asks line command graph) :
    Service.answerLine line = Request.answer ⟨some command, graph⟩ := by
  unfold Service.answerLine
  rw [asks]

theorem Request.document_eq (command : Option String) (notNull : graph ≠ .null) :
    Request.document ⟨command, graph⟩ = Document.ofJson graph := by
  unfold Request.document
  split
  · contradiction
  · rfl

/-- Commands differ in what they answer on a valid document, not in when they do. -/
theorem Request.onDocument_accepts_iff (command : Option String) (notNull : graph ≠ .null)
    {P : Event → Prop} {event : Document → Event} (accepts : ∀ document, P (event document))
    (rejects : ∀ diagnostics, ¬ P (.validationError diagnostics)) :
    P (Request.onDocument ⟨command, graph⟩ fun document =>
      if document.analyze.isValid then event document
      else .validationError document.analyze.diagnostics) ↔
      ∃ document, Document.ofJson graph = .ok document ∧ document.analyze.isValid = true := by
  rw [Request.onDocument, Request.document_eq _ notNull]
  cases Document.ofJson graph with
  | error error => simp [rejects]
  | ok document => cases valid : document.analyze.isValid <;> simp [valid, accepts, rejects]

theorem Request.answer_validate_iff (notNull : graph ≠ .null) :
    (∃ nodeCount totalWeights,
      Request.answer ⟨some "validate", graph⟩ = .validationSuccess nodeCount totalWeights) ↔
      ∃ document, Document.ofJson graph = .ok document ∧ document.analyze.isValid = true :=
  onDocument_accepts_iff (P := fun event => ∃ nodeCount totalWeights,
    event = .validationSuccess nodeCount totalWeights) _ notNull (fun _ => ⟨_, _, rfl⟩) nofun

theorem Request.answer_executionOrder_iff (notNull : graph ≠ .null) :
    (∃ order layerNames,
      Request.answer ⟨some "execution_order", graph⟩ = .executionOrder order layerNames) ↔
      ∃ document, Document.ofJson graph = .ok document ∧ document.analyze.isValid = true :=
  onDocument_accepts_iff (P := fun event => ∃ order layerNames,
    event = .executionOrder order layerNames) _ notNull (fun _ => ⟨_, _, rfl⟩) nofun

theorem accepted_of_isValid (read : Document.ofText text = .ok document)
    (taken : Document.ofJson graph = .ok document) (notNull : graph ≠ .null)
    (valid : document.analyze.isValid = true) : Accepted text graph document.analyze := by
  have analysis := Analysis.ofText_eq read
  have none : document.analyze.diagnostics = [] := List.isEmpty_iff.mp valid
  refine ⟨?_, ?_, ?_, ?_, fun line asks => ⟨document.nodes.length, ?_⟩, fun line asks => ?_⟩
  · simp [Verdict.ofText, Verdict.ofAnalysis, analysis, valid, Analysis.lines, none]
  · simp [Report.ofText, Verdict.ofAnalysis, analysis, valid, Analysis.lines, none]
  · simp [OrderReport.ofText, analysis, valid]
  · rw [Program.checked_toUTF8]
    simp [Outcome.check, read, valid]
  · simp [asks.answerLine, Request.answer, Request.onDocument, Request.document_eq _ notNull,
      taken, valid]
  · simp [asks.answerLine, Request.answer, Request.onDocument, Request.document_eq _ notNull,
      taken, valid]

theorem rejected_of_not_isValid (read : Document.ofText text = .ok document)
    (taken : Document.ofJson graph = .ok document) (notNull : graph ≠ .null)
    (invalid : document.analyze.isValid = false) : Rejected text graph document.analyze := by
  have analysis := Analysis.ofText_eq read
  refine ⟨?_, ?_, ?_, ?_, fun line asks => ?_, fun line asks => ?_⟩
  · simp [Verdict.ofText, Verdict.ofAnalysis, analysis, invalid]
  · simp [Report.ofText, Verdict.ofAnalysis, analysis, invalid]
  · simp [OrderReport.ofText, analysis, invalid]
  · rw [Program.checked_toUTF8]
    simp [Outcome.check, read, invalid]
  · simp [asks.answerLine, Request.answer, Request.onDocument, Request.document_eq _ notNull,
      taken, invalid, Event.parts, Analysis.lines]
  · simp [asks.answerLine, Request.answer, Request.onDocument, Request.document_eq _ notNull,
      taken, invalid, Event.parts, Analysis.lines]

end

/-- All entry points agree on a text without repeated names and its value. -/
theorem entryPoints_agree {text : String} {graph : Value}
    (parsed : Value.ofText text = .ok graph) (distinct : DistinctNames text)
    (notNull : graph ≠ .null) : EntryPointsAgree text graph := by
  have same (document : Document) := @Document.ofText_iff_ofJson _ _ parsed distinct document
  have valid_iff := @Analysis.isValid_ofText_iff text
  refine ⟨Program.outcome_check_dash, same, ?_, fun line asks => ?_, fun line asks => ?_,
    fun valid => ?_, fun document read invalid => ?_⟩
  · refine List.tfae_of_forall ((Analysis.ofText text).isValid = true) _ ?_
    simp only [List.forall_mem_cons]
    exact ⟨Iff.rfl, Iff.rfl, OrderReport.isSuccess_ofText_iff, Program.code_checked_iff, nofun⟩
  · rw [asks.answerLine, Request.answer_validate_iff notNull]
    simp only [← same]
    exact valid_iff.symm
  · rw [asks.answerLine, Request.answer_executionOrder_iff notNull]
    simp only [← same]
    exact valid_iff.symm
  · obtain ⟨document, read, valid⟩ := valid_iff.mp valid
    exact ⟨document, read, accepted_of_isValid read ((same document).mp read) notNull valid⟩
  · have analysis := Analysis.ofText_eq read
    exact rejected_of_not_isValid read ((same document).mp read) notNull (analysis ▸ invalid)

/-- Nodes and edges as lists, an id that is a number and unknown members. -/
def mixedText : String :=
  "\x7b\"extra\":[-1,true],\"edges\":[[\"a\",7]]," ++
    "\"nodes\":[[\"a\",\"input\",\x7b\"params\":\x7b\"shape\":[1,4]\x7d\x7d]," ++
    "\x7b\"type\":\"relu\",\"note\":null,\"id\":7\x7d]\x7d"

def mixedGraph : Value :=
  .object [
    ("extra", .array [.number (.signed (-1)), .bool true]),
    ("edges", .array [.array [.string "a", .number (.unsigned 7)]]),
    ("nodes", .array [
      .array [.string "a", .string "input",
        .object [("params", .object [
          ("shape", .array [.number (.unsigned 1), .number (.unsigned 4)])])]],
      .object [("type", .string "relu"), ("note", .null), ("id", .number (.unsigned 7))]])]

def mixedDocument : Document :=
  ⟨[⟨"a", "input", ⟨[("shape", .array [.number (.unsigned 1), .number (.unsigned 4)])]⟩⟩,
    ⟨"7", "relu", .empty⟩], [⟨"a", "7"⟩]⟩

theorem entryPoints_agree_mixed :
    Value.ofText mixedText = .ok mixedGraph.sorted ∧ DistinctNames mixedText ∧
      mixedGraph.sorted ≠ .null ∧ EntryPointsAgree mixedText mixedGraph.sorted ∧
      (Verdict.ofText mixedText).valid = true := by
  have printed : mixedText = mixedGraph.text := by decide +kernel
  have fits : mixedGraph.Fits Json.maxNesting := by
    simp [mixedGraph, Json.maxNesting, Json.Number.Genuine]
  have integral : mixedGraph.Integral := by simp [mixedGraph]
  have parsed : Value.ofText mixedText = .ok mixedGraph.sorted := by
    rw [printed]
    exact fits.decode_text integral
  have distinct : DistinctNames mixedText :=
    printed ▸ fits.distinctNames integral (by simp [mixedGraph])
  have notNull : mixedGraph.sorted ≠ .null := nofun
  have agree := entryPoints_agree parsed distinct notNull
  have read : Document.ofText mixedText = .ok mixedDocument :=
    (agree.documents mixedDocument).mpr rfl
  have valid : (Verdict.ofText mixedText).valid = true := by
    have valid : mixedDocument.analyze.isValid = true := by decide
    simp [Verdict.ofText, Analysis.ofText_eq read, Verdict.ofAnalysis, valid]
  exact ⟨parsed, distinct, notNull, agree, valid⟩

end LayerGraph
