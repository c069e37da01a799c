import LayerGraph.FileError
import LayerGraph.Service

/-!
# The command line

The commands of the program, and what each of them prints. Reading files and writing to the
terminal is left to the caller.
-/

namespace LayerGraph

open Json (Value)

inductive Command where
  | check (path : String)
  | serve
  | catalog
  deriving DecidableEq, Repr

structure Outcome where
  code : UInt8
  stdout : String
  stderr : String
  deriving DecidableEq, Repr

namespace Command

/-- Takes the flag for a verbose log out of some arguments. It may stand once, anywhere before
`--`, and every other option is unknown; a lone dash is no option. -/
def positional? : (verbose : Bool) → List String → Option (List String)
  | _, [] => some []
  | verbose, arg :: rest =>
    if arg = "--" then some rest
    else if arg = "-v" || arg = "--verbose" then
      if verbose then none else positional? true rest
    else if arg.startsWith "-" && arg ≠ "-" then none
    else (positional? verbose rest).map (arg :: ·)

def ofName? (name : String) (args : List String) : Option Command := do
  match name, ← positional? false args with
  | "check", [path] => some (.check path)
  | "serve", [] => some .serve
  | "catalog", [] => some .catalog
  | _, _ => none

/-- The command that some arguments give, the flag for a verbose log before it or behind it. -/
def ofArgs? : List String → Option Command
  | flag :: name :: args =>
    if flag = "-v" || flag = "--verbose" then ofName? name args else ofName? flag (name :: args)
  | [name] => ofName? name []
  | [] => none

end Command

namespace Outcome

def misused : Outcome :=
  ⟨2, "", "error: expected one of the commands check <PATH>, serve, catalog\n"⟩

def failed (message : String) : Outcome :=
  ⟨1, "", "\nError: " ++ message ++ "\n"⟩

/-- A value printed with indentation. -/
def document (x : Value) : String :=
  x.indentedText ++ "\n"

def check (input : Except String String) : Outcome :=
  match input with
  | .error message => failed message
  | .ok text =>
    match Document.ofText text with
    | .error error => failed (Diagnostic.ofGraph (.unreadable error)).line
    | .ok document =>
      let analysis := document.analyze
      let stdout := Outcome.document analysis.toJson
      if analysis.isValid then ⟨0, stdout, ""⟩
      else
        ⟨1, stdout,
          "\nGraph is invalid:\n" ++ String.join (analysis.lines.map fun line => "  - " ++ line ++ "\n")⟩

def serve (input : List UInt8) : Outcome :=
  let session := Service.serve input
  let stdout := String.join (session.events.map fun event => event.text ++ "\n")
  if session.complete then ⟨0, stdout, ""⟩
  else { failed ("I/O failure: " ++ Service.encodingMessage) with stdout }

def catalog : Outcome :=
  ⟨0, document catalogJson, ""⟩

def unreadableFile (path reason : String) : String :=
  "Failed to read graph file '" ++ path ++ "': " ++ reason

def unreadableInput (reason : String) : String :=
  "Failed to read stdin: " ++ reason

end Outcome

end LayerGraph
