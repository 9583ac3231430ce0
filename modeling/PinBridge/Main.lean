/-
PinBridge/Main.lean

The program: finds out what its surroundings are, runs the command line, and
prints what comes of it.
-/
import PinBridge.Tool.Run

namespace PinBridge

open Tool

/-- The number and the reason that the system gave; some calls give the number negated. -/
def numberAndReason? : IO.Error → Option (Nat × String)
  | .otherError n s | .resourceBusy n s | .resourceVanished n s | .unsupportedOperation n s
  | .hardwareFault n s | .unsatisfiedConstraints n s | .illegalOperation n s
  | .protocolError n s | .timeExpired n s => some (magnitude n, s)
  | .alreadyExists _ n s | .invalidArgument _ n s | .permissionDenied _ n s
  | .resourceExhausted _ n s | .inappropriateType _ n s | .noSuchThing _ n s =>
    some (magnitude n, s)
  | .interrupted _ n s | .noFileOrDirectory _ n s => some (magnitude n, s)
  | .unexpectedEof | .userError _ => none
where
  magnitude (n : UInt32) : Nat := min n.toNat (-n).toNat

/-- Why the system did not read a file. -/
def fileError (e : IO.Error) : FileError :=
  match numberAndReason? e with
  | some (number, reason) => .system (.ofNumber number reason)
  | none => .fault .unexpectedEof

/-- Read a file, or say why it cannot be read. -/
def readPath (path : String) : IO (Except FileError Bytes) := do
  try
    return .ok (← IO.FS.readBinFile path).toList
  catch e =>
    return .error (fileError e)

/-- Print an outcome and give its exit code. -/
def finish (outcome : Outcome) : IO UInt32 := do
  IO.print outcome.stdout
  if let some message := outcome.message then
    IO.eprintln ("error: " ++ message)
  return .ofNat outcome.code

/-- Read the files that a request may need, and carry it out. -/
def carryOut (request : Request) : IO UInt32 := do
  let paths :=
    match request with
    | .run _ task => task.paths
    | _ => []
  let contents ← paths.mapM fun path => return (path, ← readPath path)
  let files : Files := fun path => (contents.lookup path).getD (.error (.system .missing))
  match run? files request with
  | some outcome => finish outcome
  | none =>
    IO.eprintln "usage: pinwire [OPTIONS] table|decode|simulate|version [ARGUMENTS]"
    return .ofNat Code.arguments

end PinBridge

/-- Run the command line with these arguments. -/
def main (args : List String) : IO UInt32 := do
  let logLevel ← IO.getEnv "PINWIRE_LOG"
  let terminal ← (← IO.getStdout).isTty
  let surroundings : PinBridge.Tool.Surroundings := { logLevel, terminal }
  PinBridge.carryOut (surroundings.request args)
