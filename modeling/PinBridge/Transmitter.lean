/-
PinBridge/Transmitter.lean

A transmitter moves queued bytes to a channel, one span at a time.

A span that has been written stays in the queue until the channel is ready
again; only then is it taken out.  So the queue is what a failed write is
retried from, and there is never more than one span on its way.
-/
import PinBridge.LinkError

namespace PinBridge

/-- What is known of the span on its way, and two counters. -/
structure Transmitter where
  /-- The length of the span written last, until it is taken out of the queue. -/
  inFlight : Nat
  writes : Nat
  confirmed : Nat
  deriving DecidableEq, Repr

namespace Transmitter

/-- A transmitter that has not written anything. -/
def new : Transmitter := ⟨0, 0, 0⟩

/-- Forget the span on its way. -/
def reset (t : Transmitter) : Transmitter := { t with inFlight := 0 }

/-- Count the span on its way as arrived. -/
def confirm (t : Transmitter) : Transmitter :=
  { t with confirmed := t.confirmed + t.inFlight, inFlight := 0 }

/-- A span of this length has been written. -/
def launch (n : Nat) (t : Transmitter) : Transmitter :=
  { t with inFlight := n, writes := t.writes + 1 }

/-- The transmitter in a trace. -/
def describe (t : Transmitter) : String :=
  Text.record "TransmitPump"
    [("in_flight", toString t.inFlight), ("writes", toString t.writes),
      ("bytes_confirmed", toString t.confirmed)]

end Transmitter

/-- A transmitter between a queue and a channel. -/
structure Line (C : Type) where
  transmitter : Transmitter
  queue : Queue
  channel : C

namespace Line

variable {C : Type} [Channel C]

/-- The line after the span on its way has arrived. -/
def confirm (l : Line C) : Line C :=
  if 0 < l.transmitter.inFlight then
    { l with transmitter := l.transmitter.confirm, queue := l.queue.pull l.transmitter.inFlight }
  else l

/-- Write the head of the queue, if there is one; the result is its length. -/
def launch : EStateM LinkError (Line C) Nat := fun l =>
  let span := l.queue.head
  if span.isEmpty then .ok 0 l
  else
    match Channel.write span l.channel with
    | .ok () channel =>
      .ok span.length { l with channel, transmitter := l.transmitter.launch span.length }
    | .error e channel => .error (.channel e) { l with channel }

/-- One step: what is on its way has arrived if the channel is ready, and then the next span
is written.  The result is how many bytes were handed over. -/
def tick : EStateM LinkError (Line C) Nat := fun l =>
  if Channel.ready l.channel then launch l.confirm else .ok 0 l

end Line
end PinBridge
