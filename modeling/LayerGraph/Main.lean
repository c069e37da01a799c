import LayerGraph.CommandLine

/-!
# The program

Carries out a command on the files and streams of the system.
-/

namespace LayerGraph

namespace Program

def textOf (bytes : ByteArray) : Except String String :=
  match String.fromUTF8? bytes with
  | some text => .ok text
  | none => .error Service.encodingMessage

/-- A reason of the system. Some of its operations give the negative of the number. -/
def systemReason (code : UInt32) (reason : String) : String :=
  (FileError.ofNumber code.toInt32.toInt.natAbs reason).message

def readFailure : IO.Error → String
  | .noFileOrDirectory _ code reason | .invalidArgument _ code reason
  | .inappropriateType _ code reason | .permissionDenied _ code reason
  | .resourceExhausted _ code reason | .noSuchThing _ code reason
  | .interrupted _ code reason | .hardwareFault code reason
  | .otherError code reason => systemReason code reason
  | error => toString error

def readInput : IO ByteArray := do
  (← IO.getStdin).readBinToEnd

/-- The text that a check is about; a lone dash stands for the standard input. -/
def readText (path : String) : IO (Except String String) := do
  if path = "-" then
    return (textOf (← readInput)).mapError Outcome.unreadableInput
  else
    try
      return (textOf (← IO.FS.readBinFile path)).mapError (Outcome.unreadableFile path)
    catch error => return .error (Outcome.unreadableFile path (readFailure error))

def outcome (args : List String) : IO Outcome := do
  match Command.ofArgs? args with
  | some (.check path) => return Outcome.check (← readText path)
  | some .serve => return Outcome.serve (← readInput).toList
  | some .catalog => return Outcome.catalog
  | none => return Outcome.misused

end Program

end LayerGraph

def main (args : List String) : IO UInt32 := do
  let result ← LayerGraph.Program.outcome args
  IO.print result.stdout
  IO.eprint result.stderr
  return result.code.toUInt32
