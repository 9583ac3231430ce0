/-
PinBridge/Proofs/Session/Boards.lean

A session on a board, and the same session on the image of that board.

A map between boards that goes well with everything a board is told and asked
(`Board.Follows`) goes well with whole sessions: what happens to the image is
the image of what happens (`receive_onBoard`, `tick_onBoard`).

The case that matters is a board with a record of all calls made to it
(`Monitored`).  Without the record it is the board it was, so what happens to a
session that is watched in this way happens to the session that is not watched
(`apply_unwatched`).
-/
import PinBridge.Proofs.Session.Events
import PinBridge.Proofs.Session.Response

namespace PinBridge

variable {A B : Type} {f : A → B}

/-! ### Images of boards -/

/-- Doing and asking go well with a map between boards. -/
structure Board.Follows [Board A] [Board B] (f : A → B) : Prop where
  perform : ∀ (a : Action) (board : A), Board.perform a (f board) = f (Board.perform a board)
  inputLevel : ∀ (pin : UInt8) (board : A),
    Board.inputLevel pin (f board) = Prod.map id f (Board.inputLevel pin board)
  uartBacklog : ∀ (uart : UInt8) (board : A),
    Board.uartBacklog uart (f board) = Prod.map id f (Board.uartBacklog uart board)
  housekeeping : ∀ board : A, Board.housekeeping (f board) = f (Board.housekeeping board)

/-- The same bench with another board. -/
def Bench.onBoard (f : A → B) (b : Bench A) : Bench B := ⟨f b.board, b.queue⟩

/-- The same reception with another board. -/
def Reception.onBoard (f : A → B) (r : Reception A) : Reception B := ⟨r.bench.onBoard f, r.ended⟩

/-- The same session with another board. -/
def Session.onBoard (f : A → B) (s : Session A) : Session B where
  settings := s.settings
  board := f s.board
  receiver := s.receiver
  queue := s.queue
  transmitter := s.transmitter

section Follows

variable [Board A] [Board B]

theorem Answer.ask_onBoard (hf : Board.Follows f) (answer : Answer) (board : A) :
    answer.ask (f board) = Prod.map id f (answer.ask board) := by
  cases answer with
  | none => rfl
  | digitalIn pin =>
    simp only [Answer.ask, hf.inputLevel]
    rfl
  | uartTx uart =>
    simp only [Answer.ask, hf.uartBacklog]
    rfl

theorem report_onBoard (hf : Board.Follows f) (answer : Answer) (board : A) (queue : Queue) :
    Bench.report answer ⟨f board, queue⟩
      = mapState (Bench.onBoard f) (Bench.report answer ⟨board, queue⟩) := by
  simp only [report_eq, Answer.ask_onBoard hf]
  cases answer.ask board with
  | mk told board =>
    cases told with
    | none => rfl
    | some r =>
      -- both boards have been told the same, so there is one queue to look at
      cases hsend : queue.send r with
      | ok queue' =>
        simp only [Prod.map, id, hsend]
        rfl
      | error e =>
        simp only [Prod.map, id, hsend]
        rfl

theorem respond_onBoard (hf : Board.Follows f) (limits : BoardLimits) (command : Command)
    (wire : Bytes) (b : Bench A) :
    respond limits command wire (b.onBoard f)
      = mapState (Bench.onBoard f) (respond limits command wire b) := by
  cases haction : command.action limits with
  | error e =>
    rw [respond_of_refused haction, respond_of_refused haction]
    rfl
  | ok a =>
    rw [respond_of_action haction, respond_of_action haction]
    simp only [Bench.onBoard, hf.perform]
    cases command.echo wire b.queue with
    | error e => rfl
    | ok queue => exact report_onBoard hf command.answer (Board.perform a b.board) queue

/-- Handling a message goes well with the map. -/
theorem follows_handle (hf : Board.Follows f) (limits : BoardLimits) :
    Handler.Follows (Reception.onBoard f) (Reception.handle limits) (Reception.handle limits) := by
  intro received r
  cases hended : r.ended with
  | true =>
    have himage : (r.onBoard f).ended = true := hended
    rw [Reception.handle_of_ended hended, Reception.handle_of_ended himage]
    rfl
  | false =>
    have himage : (r.onBoard f).ended = false := hended
    have hrespond : respond limits received.message received.wire (r.onBoard f).bench
        = mapState (Bench.onBoard f) (respond limits received.message received.wire r.bench) :=
      respond_onBoard hf limits received.message received.wire r.bench
    rw [Reception.handle_of_running hended, Reception.handle_of_running himage, hrespond]
    cases respond limits received.message received.wire r.bench <;> rfl

/-! ### Images of sessions -/

namespace Session

omit [Board A] [Board B] in
theorem enqueue_onBoard (g : Queue → Except LinkError Queue) (s : Session A) :
    enqueue g (s.onBoard f) = mapState (onBoard f) (enqueue g s) := by
  simp only [enqueue_eq, onBoard]
  cases g s.queue <;> rfl

omit [Board A] [Board B] in
theorem send_onBoard (r : Report) (s : Session A) :
    send r (s.onBoard f) = mapState (onBoard f) (send r s) := by
  simp only [send_eq, onBoard]
  cases s.queue.send r <;> rfl

omit [Board A] [Board B] in
theorem start_onBoard (s : Session A) :
    start (s.onBoard f) = mapState (onBoard f) (start s) := by
  rw [start_eq, start_eq]
  exact send_onBoard _ s.cleared

omit [Board A] [Board B] in
theorem settle_onBoard (s : Session A) (receiver : Receiver) (r : Reception A) :
    (s.onBoard f).settle receiver (r.onBoard f) = (s.settle receiver r).onBoard f := by
  obtain ⟨bench, ended⟩ := r
  cases ended <;> rfl

theorem reception_onBoard (hf : Board.Follows f) (chunk : Bytes) (s : Session A) :
    reception chunk (s.onBoard f)
      = mapState (Prod.map id (Reception.onBoard f)) (reception chunk s) :=
  Receiver.feed_map (follows_handle hf s.settings.board) chunk s.receiver s.opening

theorem receive_onBoard (hf : Board.Follows f) (chunk : Bytes) (s : Session A) :
    receive chunk (s.onBoard f) = mapState (onBoard f) (receive chunk s) := by
  rw [receive_eq, receive_eq, reception_onBoard hf]
  cases reception chunk s with
  | ok _ left => exact congrArg (EStateM.Result.ok ()) (settle_onBoard s left.1 left.2)
  | error e left => exact congrArg (EStateM.Result.error e) (settle_onBoard s left.1 left.2)

theorem tick_onBoard (hf : Board.Follows f) {C : Type} [Channel C] (s : Session A) (channel : C) :
    tick (s.onBoard f, channel) = mapState (Prod.map (onBoard f) id) (tick (s, channel)) := by
  have hafter : ∀ l : Line C, (s.onBoard f).afterTick l = (s.afterTick l).onBoard f := by
    intro l
    simp only [afterTick, onBoard, hf.housekeeping]
  -- a line does not hold the board
  have hline : (s.onBoard f).line channel = s.line channel := rfl
  rw [tick_eq, tick_eq, hline]
  simp only [hafter]
  cases Line.tick (s.line channel) <;> rfl

end Session
end Follows

/-! ### Watching a board -/

/-- A call that a session makes to its board. -/
inductive Call where
  /-- The board is told to do something. -/
  | act (a : Action)
  | inputLevel (pin : UInt8)
  | uartBacklog (uart : UInt8)
  | housekeeping
  deriving DecidableEq, Repr

/-- A board and all calls made to it, first one first. -/
structure Monitored (B : Type) where
  board : B
  calls : List Call

namespace Monitored

/-- A further call, and what it makes of the board. -/
def note (call : Call) (m : Monitored B) (board : B) : Monitored B := ⟨board, m.calls ++ [call]⟩

instance [Board B] : Board (Monitored B) where
  perform a m := m.note (.act a) (Board.perform a m.board)
  inputLevel pin m :=
    let (level, board) := Board.inputLevel pin m.board
    (level, m.note (.inputLevel pin) board)
  uartBacklog uart m :=
    let (remaining, board) := Board.uartBacklog uart m.board
    (remaining, m.note (.uartBacklog uart) board)
  housekeeping m := m.note .housekeeping (Board.housekeeping m.board)

theorem follows_board [Board B] : Board.Follows (board : Monitored B → B) where
  perform _ _ := rfl
  inputLevel _ _ := rfl
  uartBacklog _ _ := rfl
  housekeeping _ := rfl

end Monitored

/-- The same event for a board that is watched.  What the board does by itself is not a call. -/
def SessionEvent.watched : SessionEvent B → SessionEvent (Monitored B)
  | .start => .start
  | .receive chunk => .receive chunk
  | @tick _ _ _ channel => .tick channel
  | .send r => .send r
  | .sendLevel pin level => .sendLevel pin level
  | .sendBacklog uart remaining => .sendBacklog uart remaining
  | .boardChanges f => .boardChanges fun m => { m with board := f m.board }

namespace Session

/-- A session on a board that has not been called yet, as far as one knows. -/
def watched (s : Session B) : Session (Monitored B) := s.onBoard fun board => ⟨board, []⟩

/-- The session that was watched. -/
def unwatched (s : Session (Monitored B)) : Session B := s.onBoard Monitored.board

@[simp] theorem unwatched_watched (s : Session B) : s.watched.unwatched = s := rfl

end Session

variable [Board B]

/-- **Watching does not interfere with what happens.** -/
theorem SessionEvent.apply_unwatched (event : SessionEvent B) (s : Session (Monitored B)) :
    event.apply s.unwatched = (event.watched.apply s).unwatched := by
  have hf : Board.Follows (Monitored.board : Monitored B → B) := Monitored.follows_board
  cases event with
  | start => exact (congrArg stateOf (Session.start_onBoard s)).trans (stateOf_mapState _ _)
  | receive chunk =>
    exact (congrArg stateOf (Session.receive_onBoard hf chunk s)).trans (stateOf_mapState _ _)
  | tick channel =>
    have htick := congrArg stateOf (Session.tick_onBoard hf s channel)
    rw [stateOf_mapState] at htick
    exact congrArg Prod.fst htick
  | send r => exact (congrArg stateOf (Session.send_onBoard r s)).trans (stateOf_mapState _ _)
  | sendLevel pin level =>
    exact (congrArg stateOf (Session.enqueue_onBoard _ s)).trans (stateOf_mapState _ _)
  | sendBacklog uart remaining =>
    exact (congrArg stateOf (Session.enqueue_onBoard _ s)).trans (stateOf_mapState _ _)
  | boardChanges f => rfl

end PinBridge
