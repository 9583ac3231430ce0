/-
PinBridge/Tool/Failure.lean

How the command line ends when something goes wrong: an exit code and a line of
text.

The codes tell causes apart: 1 for a full queue, 50 for a file that may not be
read, 60 for data that is not valid, 64 for wrong use, 125 for the rest.
-/
import PinBridge.Session
import PinBridge.Text.HexReader
import PinBridge.Tool.Files

namespace PinBridge.Tool

/-- An exit code and the line that explains it. -/
structure Failure where
  code : Nat
  message : String
  deriving DecidableEq, Repr

/-- All went well. -/
def Code.success : Nat := 0

/-- Something did not fit the queue. -/
def Code.failure : Nat := 1

/-- The arguments themselves are refused. -/
def Code.arguments : Nat := 2

/-- A file may not be read. -/
def Code.permissionDenied : Nat := 50

/-- A stream does not hold what it should. -/
def Code.invalidData : Nat := 60

/-- The program is asked for something that it cannot do. -/
def Code.usage : Nat := 64

/-- Anything else. -/
def Code.internal : Nat := 125

/-- The exit code for a file that cannot be read. -/
def FileError.code : FileError → Nat
  | .system .denied | .system .notPermitted | .fault .permissionDenied => Code.permissionDenied
  | .system .missing | .fault .notFound => Code.usage
  | _ => Code.internal

namespace Failure

/-- A text with what was being done in front. -/
def within (context : String) (code : Nat) (text : String) : Failure :=
  ⟨code, context ++ ": " ++ text⟩

def ofFile (context : String) (e : FileError) : Failure := within context e.code e.text

def ofHex (e : Text.HexError) : Failure := ⟨Code.usage, e.message⟩

def ofLink (context : String) (e : LinkError) : Failure :=
  match e with
  | .stream _ | .trailer _ => within context Code.invalidData e.message
  | .queue _ => within context Code.failure e.message
  | .channel _ => within context Code.internal e.message

/-- An answer that could not be queued counts as what stopped it. -/
def ofSession (context : String) (e : SessionError) : Failure :=
  match e with
  | .stream _ => within context Code.invalidData e.message
  | .refusal (.outgoing e) => ofLink context e
  | .refusal _ => within context Code.invalidData e.message
  | .link e => ofLink context e

end Failure
end PinBridge.Tool
