/-
PinBridge/Tool/Files.lean

What can be read by a path, and why a path cannot be read.

The command line sees files as a function from paths to contents or errors.
`FileTree` is one such function that needs no disk: a tree of directories and
files in memory, in which paths are looked up name by name.  The names before
the last one must be directories, and so must every place at which `.`, `..` or
an empty name stands; hence nothing can be found beneath a file, and a path that
ends in a slash never leads to one.
-/
import PinBridge.Channel.Basic

namespace PinBridge.Tool

/-! ### Errors -/

/-- An error that the system reports by a number. -/
inductive SystemError where
  | notPermitted
  | missing
  | inputOutput
  | noDevice
  | denied
  | notDirectory
  | directory
  | nameTooLong
  | linkLoop
  | other (number : Nat) (reason : String)
  deriving DecidableEq, Repr

namespace SystemError

def number : SystemError → Nat
  | .notPermitted => 1
  | .missing => 2
  | .inputOutput => 5
  | .noDevice => 6
  | .denied => 13
  | .notDirectory => 20
  | .directory => 21
  | .nameTooLong => 36
  | .linkLoop => 40
  | .other number _ => number

def reason : SystemError → String
  | .notPermitted => "Operation not permitted"
  | .missing => "No such file or directory"
  | .inputOutput => "Input/output error"
  | .noDevice => "No such device or address"
  | .denied => "Permission denied"
  | .notDirectory => "Not a directory"
  | .directory => "Is a directory"
  | .nameTooLong => "File name too long"
  | .linkLoop => "Too many levels of symbolic links"
  | .other _ reason => reason

def text (e : SystemError) : String := s!"{e.reason} (os error {e.number})"

/-- The errors with a reason of their own. -/
def named : List SystemError :=
  [.notPermitted, .missing, .inputOutput, .noDevice, .denied, .notDirectory, .directory,
    .nameTooLong, .linkLoop]

/-- The error with a number; the reason is for one that has none of its own. -/
def ofNumber (number : Nat) (reason : String) : SystemError :=
  (named.find? fun e => e.number == number).getD (.other number reason)

end SystemError

/-- Why a file cannot be read. -/
inductive FileError where
  | system (e : SystemError)
  /-- The file is not text in UTF-8. -/
  | notText
  | fault (f : SystemFault)
  deriving DecidableEq, Repr

namespace FileError

def text : FileError → String
  | .system e => e.text
  | .notText => "stream did not contain valid UTF-8"
  | .fault f => f.text

end FileError

/-- The content of the file at a path, or why it cannot be read. -/
abbrev Files := String → Except FileError Bytes

/-! ### Files in memory -/

/-- A place in a tree: the names on the way from the root. -/
abbrev Place := List String

/-- Directories and files in memory.  The root is always a directory. -/
structure FileTree where
  /-- The place at which a path starts that does not start with a slash. -/
  here : Place
  directories : List Place
  /-- The files, and what comes of reading each. -/
  files : List (Place × Except FileError Bytes)

namespace FileTree

/-- The longest name, in bytes. -/
def longestName : Nat := 255

/-- The longest path, in bytes. -/
def longestPath : Nat := 4095

def isDirectory (t : FileTree) (place : Place) : Bool :=
  place.isEmpty || t.directories.contains place

/-- Whether a directory or a file is there. -/
def has (t : FileTree) (place : Place) : Bool :=
  t.isDirectory place || (t.files.lookup place).isSome

/-- Go on by one name of a path.  The directory above the root is the root. -/
def enter (t : FileTree) (place : Place) (name : String) : Except SystemError Place :=
  if !t.isDirectory place then .error .notDirectory
  else if name = "" ∨ name = "." then .ok place
  else if name = ".." then .ok place.dropLast
  else if longestName < name.utf8ByteSize then .error .nameTooLong
  else if t.has (place ++ [name]) then .ok (place ++ [name])
  else .error .missing

/-- The place that a path leads to. -/
def find (t : FileTree) (path : String) : Except SystemError Place :=
  if path.isEmpty then .error .missing
  else if longestPath < path.utf8ByteSize then .error .nameTooLong
  else (path.splitOn "/").foldlM t.enter (if path.startsWith "/" then [] else t.here)

/-- What comes of reading the file at a path. -/
def read (t : FileTree) : Files := fun path =>
  match t.find path with
  | .error e => .error (.system e)
  | .ok place => (t.files.lookup place).getD (.error (.system .directory))

end FileTree
end PinBridge.Tool
