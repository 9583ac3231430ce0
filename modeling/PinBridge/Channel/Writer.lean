/-
PinBridge/Channel/Writer.lean

A channel over a writer that may take only a part of what it is offered.

The channel offers a span again and again, each time the part that has not been
taken, until all of it is gone; then it flushes.  An interrupted call is tried
once more.  A writer that takes nothing closes the channel for good; any other
fault is passed on.

The writer follows a script: what each call to write and to flush answers.
When a script has run out, everything is taken.
-/
import PinBridge.Channel.Basic
import PinBridge.Text.Record

namespace PinBridge

/-- What a call to write answers. -/
inductive WriteReply where
  /-- Takes at most so many bytes. -/
  | takes (limit : Nat)
  | fails (f : SystemFault)
  deriving DecidableEq, Repr

/-- What a call to flush answers. -/
inductive FlushReply where
  | done
  | fails (f : SystemFault)
  deriving DecidableEq, Repr

/-- A writer that follows a script. -/
structure ScriptedWriter where
  /-- The answers still to be given to calls to write. -/
  writes : List WriteReply
  /-- The answers still to be given to calls to flush. -/
  flushes : List FlushReply
  /-- All bytes taken. -/
  taken : Bytes
  /-- What each call to write was offered, first call first. -/
  offers : List Bytes
  flushCalls : Nat
  deriving DecidableEq, Repr

namespace ScriptedWriter

/-- A writer that has not been called. -/
def new (writes : List WriteReply) (flushes : List FlushReply) : ScriptedWriter :=
  ⟨writes, flushes, [], [], 0⟩

def writeCalls (w : ScriptedWriter) : Nat := w.offers.length

end ScriptedWriter

/-- How the handing over of a span ends. -/
inductive Stop where
  /-- All of it is taken. -/
  | emptied
  /-- The writer took nothing. -/
  | refused
  | failed (f : SystemFault)
  deriving DecidableEq, Repr

/-- The calls that handing over a span takes. -/
structure Handover where
  stop : Stop
  /-- The rest of the script. -/
  script : List WriteReply
  /-- The bytes taken. -/
  taken : Bytes
  /-- What each call was offered. -/
  offers : List Bytes
  deriving DecidableEq, Repr

namespace Handover

/-- The calls that follow a call in which the front of the data was taken. -/
def after (offer front : Bytes) (rest : Handover) : Handover :=
  { rest with taken := front ++ rest.taken, offers := offer :: rest.offers }

/-- Hand over data to a writer with this script. -/
def run : List WriteReply → Bytes → Handover
  | script, [] => ⟨.emptied, script, [], []⟩
  | [], data => ⟨.emptied, [], data, [data]⟩
  | .takes 0 :: script, data => ⟨.refused, script, [], [data]⟩
  | .takes limit :: script, data => (run script (data.drop limit)).after data (data.take limit)
  | .fails .interrupted :: script, data => (run script data).after data []
  | .fails f :: script, data => ⟨.failed f, script, [], [data]⟩

end Handover

/-- The calls that a flush takes. -/
structure Flushing where
  fault : Option SystemFault
  /-- The rest of the script. -/
  script : List FlushReply
  calls : Nat
  deriving DecidableEq, Repr

namespace Flushing

/-- Flush a writer with this script. -/
def run : List FlushReply → Flushing
  | [] => ⟨none, [], 1⟩
  | .done :: script => ⟨none, script, 1⟩
  | .fails .interrupted :: script =>
    let rest := run script
    { rest with calls := rest.calls + 1 }
  | .fails f :: script => ⟨some f, script, 1⟩

end Flushing

/-- A channel over a writer. -/
structure WriterChannel where
  writer : ScriptedWriter
  closed : Bool
  /-- The lengths of the spans taken whole, summed up. -/
  handedOver : Nat
  deriving DecidableEq, Repr

namespace WriterChannel

def new (writer : ScriptedWriter) : WriterChannel := ⟨writer, false, 0⟩

def ready (c : WriterChannel) : Bool := !c.closed

/-- Flush the writer. -/
def flush : EStateM ChannelError WriterChannel Unit := fun c =>
  let f := Flushing.run c.writer.flushes
  let c := { c with
    writer := { c.writer with flushes := f.script, flushCalls := c.writer.flushCalls + f.calls } }
  match f.fault with
  | none => .ok () c
  | some fault => .error (.fault fault) c

/-- Hand over a span and flush. -/
def write (data : Bytes) : EStateM ChannelError WriterChannel Unit := fun c =>
  if c.closed then .error .closed c
  else
    let h := Handover.run c.writer.writes data
    let c := { c with
      writer := { c.writer with
        writes := h.script
        taken := c.writer.taken ++ h.taken
        offers := c.writer.offers ++ h.offers } }
    match h.stop with
    | .refused => .error .closed { c with closed := true }
    | .failed f => .error (.fault f) c
    | .emptied => flush { c with handedOver := c.handedOver + data.length }

instance : Channel WriterChannel := ⟨ready, write⟩

/-- Lengthen the writer's scripts. -/
def extendScript (writes : List WriteReply) (flushes : List FlushReply) (c : WriterChannel) :
    WriterChannel :=
  { c with
    writer := { c.writer with
      writes := c.writer.writes ++ writes
      flushes := c.writer.flushes ++ flushes } }

/-- The channel in a trace. -/
def describe (c : WriterChannel) : String :=
  Text.record "StreamChannel"
    [("closed", toString c.closed), ("bytes_written", toString c.handedOver)]

end WriterChannel
end PinBridge
