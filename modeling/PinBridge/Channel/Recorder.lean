/-
PinBridge/Channel/Recorder.lean

A channel that keeps what is written to it.

An immediate channel is ready at once again.  A deferring one has a span on its
way until `complete` says that it has arrived, like a link that finishes its
writes later.
-/
import PinBridge.Channel.Basic

namespace PinBridge

/-- A channel that records. -/
structure Recorder where
  /-- Whether spans arrive later than they are written. -/
  defers : Bool
  /-- The spans written, first one first. -/
  writes : List Bytes
  /-- The length of the span on its way. -/
  inFlight : Option Nat
  closed : Bool
  deriving DecidableEq, Repr

namespace Recorder

/-- A channel that is done with every span at once. -/
def immediate : Recorder := ⟨false, [], none, false⟩

/-- A channel that waits for `complete` after every span. -/
def deferring : Recorder := ⟨true, [], none, false⟩

/-- All bytes written. -/
def written (c : Recorder) : Bytes := c.writes.flatten

/-- The span on its way has arrived. -/
def complete (c : Recorder) : Recorder := { c with inFlight := none }

/-- Forget the spans written so far. -/
def forgetWritten (c : Recorder) : Recorder := { c with writes := [] }

/-- Refuse every further span. -/
def close (c : Recorder) : Recorder := { c with closed := true }

def ready (c : Recorder) : Bool := !c.closed && c.inFlight.isNone

def write (data : Bytes) : EStateM ChannelError Recorder Unit := fun c =>
  if c.closed then .error .closed c
  else
    match c.inFlight with
    | some pending => .error (.notReady pending) c
    | none =>
      .ok () { c with
        writes := c.writes ++ [data]
        inFlight := if c.defers then some data.length else none }

instance : Channel Recorder := ⟨ready, write⟩

end Recorder
end PinBridge
