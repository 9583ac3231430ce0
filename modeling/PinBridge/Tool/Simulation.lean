/-
PinBridge/Tool/Simulation.lean

A whole session with a virtual board: open it, feed a stream, send what is
queued.
-/
import PinBridge.Session
import PinBridge.Board.Virtual
import PinBridge.Channel.Writer
import PinBridge.Tool.Failure
import PinBridge.Tool.Listing

namespace PinBridge

namespace Session

variable {B C : Type} [Board B] [Channel C]

/-- Transmit until the queue is empty or the channel takes no more, for at most so many steps; the
result is whether that was enough. -/
def sendQueued : (steps : Nat) → EStateM SessionError (Session B × C) Bool
  | 0 => do return (← get).1.queue.isEmpty
  | steps + 1 => do
    if (← get).1.queue.isEmpty then
      return true
    let sent ← tick
    if sent = 0 && !Channel.ready (← get).2 then
      return true
    sendQueued steps

end Session

namespace Tool

/-- What a session did with a stream. -/
structure Simulation where
  actions : List Action
  /-- The bytes sent to the host. -/
  outgoing : Bytes
  decoded : Nat
  dropped : Nat
  /-- What stopped the stream. -/
  error : Option SessionError
  deriving DecidableEq, Repr

/-- A board on which these inputs read high. -/
def boardWith (limits : BoardLimits) (high : List UInt8) : VirtualBoard :=
  high.foldl (fun board pin => board.driveInput pin true) (.new limits)

/-- A session that is opened, fed in pieces up to the first that fails, and has its queue sent.
Every step of the transmitter but the first takes at least one byte out of the queue. -/
def simulate (settings : Settings) (stream : Bytes) (chunk : Nat) (high : List UInt8) :
    Except Failure Simulation :=
  match Session.start (Session.new settings (boardWith settings.board high)) with
  | .error e _ => .error (.ofSession "initialize failed" e)
  | .ok () session =>
    let (error, session) :=
      match Session.receiveAll (Wire.chunksOf chunk stream) session with
      | .ok () session => (none, session)
      | .error e session => (some e, session)
    let channel := WriterChannel.new (.new [] [])
    match Session.sendQueued (session.queue.length + 1) (session, channel) with
    | .error e _ => .error (.ofSession "transmit failed" e)
    | .ok _ (session, channel) =>
      .ok {
        actions := session.board.actions
        outgoing := channel.writer.taken
        decoded := session.receiver.decoded
        dropped := session.receiver.dropped
        error }

/-- What was sent, as entries, and what is wrong with it. -/
def listOutgoing (stream : Bytes) : List Entry × Option String :=
  let listing := listStream .outgoing .abort (max 1 stream.length) stream
  let error :=
    match listing.error with
    | some e => some e.message
    | none => if listing.trailing then some "output ends inside a message" else none
  (listing.records, error)

/-- Actions and sent messages in rows. -/
def simulationSheet (actions : List Action) (sent : List Entry) : Sheet where
  header := ["KIND", "#", "DETAIL"]
  rows :=
    actions.mapIdx (fun i call => ["call", toString i, call.describe]) ++
      sent.mapIdx fun i r =>
        ["sent", toString i, r.name ++ " [" ++ r.wire ++ "] " ++ r.fields]

end Tool
end PinBridge
