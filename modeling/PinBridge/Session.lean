/-
PinBridge/Session.lean

A session between a board and its host.

A session cuts what the host sends into commands, has the board carry them out,
and keeps a queue of answers that a transmitter writes to a channel.  A hard
reset ends the session: the commands that follow it in the same chunk are
received and not carried out, the queue is dropped, and the receiver stays
halted until the session is opened anew.
-/
import PinBridge.Response
import PinBridge.Transmitter
import PinBridge.Settings

namespace PinBridge

/-- What can go wrong in a session. -/
inductive SessionError where
  | stream (e : StreamError)
  | refusal (e : Refusal)
  | link (e : LinkError)
  deriving DecidableEq, Repr

namespace SessionError

def message : SessionError → String
  | .stream e => "decode error: " ++ e.message
  | .refusal e => "dispatch error: " ++ e.message
  | .link e => "frame error: " ++ e.message

end SessionError

/-- A session with a board. -/
structure Session (B : Type) where
  settings : Settings
  board : B
  receiver : Receiver
  queue : Queue
  transmitter : Transmitter

/-- What a chunk of commands works on: the bench, and whether a hard reset has ended the
session. -/
structure Reception (B : Type) where
  bench : Bench B
  ended : Bool

/-- Whether a command ends the session once it has been carried out. -/
def Command.endsSession : Command → Bool
  | .hardReset _ => true
  | _ => false

namespace Reception

variable {B : Type} [Board B]

/-- Carry out a received command, unless the session has ended. -/
def handle (limits : BoardLimits) : Handler .incoming SessionError (Reception B) :=
  fun received r =>
    if r.ended then .ok () r
    else
      match respond limits received.message received.wire r.bench with
      | .ok () bench => .ok () ⟨bench, received.message.endsSession⟩
      | .error e bench => .error (.refusal e) { r with bench }

end Reception

namespace Session

variable {B : Type}

/-- A session that has not been opened. -/
def new (settings : Settings) (board : B) : Session B where
  settings := settings
  board := board
  receiver := .new settings.recovery
  queue := .empty settings.queueCapacity.toNat
  transmitter := .new

/-- The message that opens a session. -/
def greeting (v : Versions) : Report := .connection Wire.magic v.hardware v.bootloader v.firmware

/-- Queue something for the host. -/
def enqueue (f : Queue → Except LinkError Queue) : EStateM LinkError (Session B) Unit := fun s =>
  match f s.queue with
  | .ok queue => .ok () { s with queue }
  | .error e => .error e s

/-- Queue a message for the host. -/
def send (r : Report) : EStateM SessionError (Session B) Unit :=
  EStateM.adaptExcept .link (enqueue (Queue.send r))

/-- Drop what is queued and forget the span on its way. -/
def dropOutput (s : Session B) : Session B :=
  { s with queue := s.queue.clear, transmitter := s.transmitter.reset }

/-- Open the session on a new connection: forget an unfinished message, a halt and all queued
bytes, and announce the connection. -/
def start : EStateM SessionError (Session B) Unit := do
  modify fun s => { s.dropOutput with receiver := s.receiver.reset }
  send (greeting (← get).settings.versions)

/-- The session after a chunk. -/
def settle (s : Session B) (receiver : Receiver) (r : Reception B) : Session B :=
  let s := { s with receiver, board := r.bench.board, queue := r.bench.queue }
  if r.ended then { s.dropOutput with receiver := receiver.halt } else s

variable [Board B]

/-- Take a chunk from the host. -/
def receive (chunk : Bytes) : EStateM SessionError (Session B) Unit := fun s =>
  match Receiver.feed .stream (Reception.handle s.settings.board) chunk
      (s.receiver, ⟨⟨s.board, s.queue⟩, false⟩) with
  | .ok () (receiver, r) => .ok () (s.settle receiver r)
  | .error e (receiver, r) => .error e (s.settle receiver r)

/-- Take chunks one after the other, up to the first that fails. -/
def receiveAll (chunks : List Bytes) : EStateM SessionError (Session B) Unit :=
  chunks.forM receive

/-- Housekeeping and one step of the transmitter; the result is how many bytes were handed over. -/
def tick {C : Type} [Channel C] : EStateM SessionError (Session B × C) Nat := fun (s, channel) =>
  let board := Board.housekeeping s.board
  let after (l : Line C) : Session B × C :=
    ({ s with board, transmitter := l.transmitter, queue := l.queue }, l.channel)
  match Line.tick ⟨s.transmitter, s.queue, channel⟩ with
  | .ok n l => .ok n (after l)
  | .error e l => .error (.link e) (after l)

/-- The session in a trace, given how its board is traced. -/
def describe (describeBoard : B → String) (s : Session B) : String :=
  Text.record "Protocol"
    [("config", s.settings.describe),
      ("hardware", describeBoard s.board),
      ("decoder", s.receiver.describe .incoming),
      ("pump", s.transmitter.describe),
      ("queued", toString s.queue.length)]

end Session
end PinBridge
