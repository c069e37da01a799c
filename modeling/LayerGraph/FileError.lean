/-!
# Files that cannot be read

Why the system does not read a file, and what it says about a path that leads to no file at all.
-/

namespace LayerGraph

/-- A reason of the system not to read a file: its number, and its words. -/
structure FileError where
  number : Nat
  reason : String
  deriving DecidableEq, Repr

namespace FileError

def noEntry : FileError :=
  ⟨2, "No such file or directory"⟩

def noPermission : FileError :=
  ⟨13, "Permission denied"⟩

def notDirectory : FileError :=
  ⟨20, "Not a directory"⟩

def isDirectory : FileError :=
  ⟨21, "Is a directory"⟩

def nameTooLong : FileError :=
  ⟨36, "File name too long"⟩

def tooManyLinks : FileError :=
  ⟨40, "Too many levels of symbolic links"⟩

/-- The reason with a number, in the words above if they have it, else in those that are given. -/
def ofNumber (number : Nat) (reason : String) : FileError :=
  ([noEntry, noPermission, notDirectory, isDirectory, nameTooLong, tooManyLinks].find?
    (·.number = number)).getD ⟨number, reason⟩

def message (error : FileError) : String :=
  error.reason ++ " (os error " ++ toString error.number ++ ")"

/-- The greatest lengths, in bytes, of a name in a path and of a path. -/
def maxName : Nat :=
  255
def maxPath : Nat :=
  4095

def names (path : List Char) : List String :=
  (path.foldr (fun c names => if c = '/' then [] :: names else names.modifyHead (c :: ·)) [[]]).map
    String.ofList

def isStep (name : String) : Bool :=
  name = "" || name = "." || name = ".."

/-- What the system says about a path that leads to no file. The walk along its names ends at the
first one that has to be looked up; without such a name the path leads to a directory. -/
def ofPath (path : String) : FileError :=
  if path = "" then noEntry
  else if maxPath < path.utf8ByteSize then nameTooLong
  else
    match (names path.toList).find? (!isStep ·) with
    | none => isDirectory
    | some name => if maxName < name.utf8ByteSize then nameTooLong else noEntry

end FileError

end LayerGraph
