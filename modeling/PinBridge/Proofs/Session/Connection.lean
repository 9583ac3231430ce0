/-
PinBridge/Proofs/Session/Connection.lean

A session together with the channel that it sends on.

The channel stays the same from tick to tick and keeps what it has become; in
between it may change by itself, as the board may.  Besides what a session can
be told, others may put messages on its queue, or bytes as they are
(`Posting`).  Nothing else touches the queue.

A connection can be watched from outside: the calls to its board and the spans
its channel is offered are recorded (`Connection.observed`), and the record
does not interfere.

Main statements: `perform_unobserved`, and `Attainable.sized`, what holds of
every session that can be reached in this way.
-/
import PinBridge.Proofs.Channel.Tapped
import PinBridge.Proofs.Session.Boards
import PinBridge.Proofs.Session.Output

namespace PinBridge

/-! ### Events -/

/-- What can be put on a queue. -/
inductive Posting where
  | message (r : Report)
  | bytes (wire : Bytes)
  | level (pin : UInt8) (high : Bool)
  | backlog (uart : UInt8) (remaining : UInt16)
  deriving DecidableEq, Repr

def Posting.put : Posting → Queue → Except LinkError Queue
  | .message r => Queue.send r
  | .bytes wire => Queue.sendBytes wire
  | .level pin high => Queue.sendLevel pin high
  | .backlog uart remaining => Queue.sendBacklog uart remaining

/-- What is put on a queue comes behind its content. -/
theorem Posting.eq_extend_of_put {posting : Posting} {q q' : Queue}
    (h : posting.put q = .ok q') : ∃ added, q' = q.extend added := by
  have hsend : ∀ {r : Report}, q.send r = .ok q' → ∃ added, q' = q.extend added := fun h =>
    let ⟨image, _, hextend⟩ := Queue.eq_extend_of_send h
    ⟨image, hextend⟩
  cases posting with
  | message r => exact hsend h
  | bytes wire => exact ⟨wire, Queue.eq_extend_of_sendBytes h⟩
  | level pin high => exact hsend (r := .digitalInStatus pin high) h
  | backlog uart remaining => exact hsend (r := .uartTxStatus uart remaining) h

/-- A session and its channel. -/
abbrev Connection (B C : Type) := Session B × C

/-- What may happen to a connection. -/
inductive ConnectionEvent (B C : Type) where
  | start
  | receive (chunk : Bytes)
  | tick
  | post (posting : Posting)
  /-- The board changes without being told to. -/
  | boardChanges (f : B → B)
  /-- The channel changes without being written to. -/
  | channelChanges (f : C → C)

namespace ConnectionEvent

variable {B C : Type}

/-- Something happens to the session alone. -/
def onSession (act : EStateM SessionError (Session B) Unit) :
    EStateM SessionError (Connection B C) Nat := fun p =>
  match act p.1 with
  | .ok () s => .ok 0 (s, p.2)
  | .error e s => .error e (s, p.2)

theorem stateOf_onSession (act : EStateM SessionError (Session B) Unit) (p : Connection B C) :
    stateOf (onSession act p) = (stateOf (act p.1), p.2) := by
  unfold onSession
  cases act p.1 <;> rfl

/-- Put something on the queue. -/
def enqueue (posting : Posting) : EStateM SessionError (Session B) Unit :=
  EStateM.adaptExcept .link (Session.enqueue posting.put)

theorem enqueue_eq (posting : Posting) (s : Session B) :
    enqueue posting s =
      match posting.put s.queue with
      | .ok queue => .ok () { s with queue }
      | .error e => .error (.link e) s := by
  rw [enqueue, EStateM.adaptExcept, Session.enqueue_eq]
  cases posting.put s.queue <;> rfl

theorem stateOf_enqueue (posting : Posting) (s : Session B) :
    stateOf (enqueue posting s) = stateOf (Session.enqueue posting.put s) := by
  rw [enqueue_eq, Session.enqueue_eq]
  cases posting.put s.queue <;> rfl

variable [Board B] [Channel C]

/-- What an event does, and what it answers: how many bytes a tick has handed over, and else 0. -/
def perform : ConnectionEvent B C → EStateM SessionError (Connection B C) Nat
  | .start => onSession Session.start
  | .receive chunk => onSession (Session.receive chunk)
  | .tick => Session.tick
  | .post posting => onSession (enqueue posting)
  | .boardChanges f => fun p => .ok 0 ({ p.1 with board := f p.1.board }, p.2)
  | .channelChanges f => fun p => .ok 0 (p.1, f p.2)

/-- The connection that an event leaves behind, whether it fails or not. -/
def apply (event : ConnectionEvent B C) (p : Connection B C) : Connection B C :=
  stateOf (event.perform p)

/-- One event after the other. -/
def run (events : List (ConnectionEvent B C)) (p : Connection B C) : Connection B C :=
  events.foldl (fun p event => event.apply p) p

/-! What each event makes of a connection. -/

theorem apply_start (p : Connection B C) : start.apply p = (stateOf (Session.start p.1), p.2) :=
  stateOf_onSession _ p

theorem apply_receive (chunk : Bytes) (p : Connection B C) :
    (receive chunk).apply p = (stateOf (Session.receive chunk p.1), p.2) :=
  stateOf_onSession _ p

theorem apply_post (posting : Posting) (p : Connection B C) :
    (post posting).apply p = (stateOf (enqueue posting p.1), p.2) :=
  stateOf_onSession _ p

theorem apply_tick (p : Connection B C) :
    tick.apply p = (p.1.afterTick (Line.left (Line.tick (p.1.line p.2))),
      (Line.left (Line.tick (p.1.line p.2))).channel) := by
  show stateOf (Session.tick (p.1, p.2)) = _
  rw [Session.tick_eq]
  cases Line.tick (p.1.line p.2) <;> rfl

end ConnectionEvent

/-! ### Watching a connection -/

/-- A connection with a record of all calls to its board and all offers to its channel. -/
def Connection.observed {B C : Type} (p : Connection B C) : Connection (Monitored B) (Tapped C) :=
  (p.1.watched, ⟨p.2, []⟩)

/-- The connection that was watched. -/
def Connection.unobserved {B C : Type} (p : Connection (Monitored B) (Tapped C)) :
    Connection B C :=
  (p.1.unwatched, p.2.channel)

/-- The same event for a connection that is watched. -/
def ConnectionEvent.observed {B C : Type} :
    ConnectionEvent B C → ConnectionEvent (Monitored B) (Tapped C)
  | .start => .start
  | .receive chunk => .receive chunk
  | .tick => .tick
  | .post posting => .post posting
  | .boardChanges f => .boardChanges fun m => { m with board := f m.board }
  | .channelChanges f => .channelChanges fun t => { t with channel := f t.channel }

namespace ConnectionEvent

open Connection

variable {B C : Type}

omit B C in
theorem onSession_unobserved {B C : Type} {act : EStateM SessionError (Session B) Unit}
    {act' : EStateM SessionError (Session (Monitored B)) Unit}
    (p : Connection (Monitored B) (Tapped C))
    (h : act p.1.unwatched = mapState Session.unwatched (act' p.1)) :
    onSession act (unobserved p) = mapState unobserved (onSession act' p) := by
  show onSession act (p.1.unwatched, p.2.channel) = _
  unfold onSession
  simp only [h]
  cases act' p.1 <;> rfl

variable [Board B] [Channel C]

theorem tick_unobserved (p : Connection (Monitored B) (Tapped C)) :
    Session.tick (unobserved p) = mapState unobserved (Session.tick p) := by
  obtain ⟨s, t⟩ := p
  have hwatched : Session.tick (s.unwatched, t.channel)
      = mapState (Prod.map Session.unwatched id) (Session.tick (s, t.channel)) :=
    Session.tick_onBoard Monitored.follows_board s t.channel
  have htapped : Session.tick (s, t.channel)
      = mapState (Prod.map id Tapped.channel) (Session.tick (s, t)) := by
    have hline : Line.tick (s.line t.channel) = mapState Line.untapped (Line.tick (s.line t)) :=
      Line.tick_untapped (s.line t)
    rw [Session.tick_eq, Session.tick_eq, hline]
    cases Line.tick (s.line t) <;> rfl
  show Session.tick (s.unwatched, t.channel) = _
  rw [hwatched, htapped]
  cases Session.tick (s, t) <;> rfl

/-- **Watching does not interfere with an event.** -/
theorem perform_unobserved (event : ConnectionEvent B C)
    (p : Connection (Monitored B) (Tapped C)) :
    event.perform (unobserved p) = mapState unobserved (event.observed.perform p) := by
  cases event with
  | start => exact onSession_unobserved p (Session.start_onBoard p.1)
  | receive chunk =>
    exact onSession_unobserved p (Session.receive_onBoard Monitored.follows_board chunk p.1)
  | tick => exact tick_unobserved p
  | post posting =>
    refine onSession_unobserved p ?_
    have hqueue : p.1.unwatched.queue = p.1.queue := rfl
    rw [enqueue_eq, enqueue_eq, hqueue]
    cases posting.put p.1.queue <;> rfl
  | boardChanges f => rfl
  | channelChanges f => rfl

/-- **Watching does not interfere with a run.** -/
theorem run_unobserved (events : List (ConnectionEvent B C))
    (p : Connection (Monitored B) (Tapped C)) :
    run events (unobserved p) = unobserved (run (events.map observed) p) := by
  induction events generalizing p with
  | nil => rfl
  | cons event events ih =>
    have hstep : event.apply (unobserved p) = unobserved (event.observed.apply p) := by
      rw [apply, perform_unobserved, stateOf_mapState]
      rfl
    show run events (event.apply (unobserved p))
      = unobserved (run (events.map observed) (event.observed.apply p))
    rw [hstep, ih]

end ConnectionEvent

/-! ### What a connection can become -/

/-- A tick does not change how much the queue holds. -/
theorem Line.capacity_tick {C : Type} [Channel C] (l : Line C) :
    (Line.left (Line.tick l)).queue.capacity = l.queue.capacity := by
  have hconfirm : l.confirm.queue.capacity = l.queue.capacity := by
    unfold Line.confirm
    split <;> rfl
  have hticked := Line.ticked l
  generalize Line.tick l = result at hticked ⊢
  cases hticked with
  | waiting hready => rfl
  | idle hready hspan => exact hconfirm
  | written hready hspan hwrite => exact hconfirm
  | failed hready hspan hwrite => exact hconfirm

namespace Session

variable {B C : Type} {settings : Settings} {s : Session B}

/-- What holds of every session that can be reached. -/
structure Sized (settings : Settings) (s : Session B) : Prop where
  coherent : s.Coherent settings
  capacity : s.queue.capacity = settings.queueCapacity.toNat

theorem Sized.new (settings : Settings) (board : B) : Sized settings (.new settings board) :=
  ⟨.new settings board, rfl⟩

theorem Sized.watched (h : Sized settings s) : Sized settings s.watched :=
  ⟨⟨h.coherent.settings_eq, h.coherent.recovery_eq, h.coherent.reachable⟩, h.capacity⟩

/-- The session after something was put on the queue, or was not. -/
theorem stateOf_post (posting : Posting) (s : Session B) :
    ∃ added, stateOf (ConnectionEvent.enqueue posting s)
      = { s with queue := s.queue.extend added } := by
  rw [ConnectionEvent.stateOf_enqueue]
  rcases Session.stateOf_enqueue posting.put s with hsame | ⟨queue, hput, hqueue⟩
  · exact ⟨[], by rw [hsame, Queue.extend_nil]⟩
  · obtain ⟨added, rfl⟩ := Posting.eq_extend_of_put hput
    exact ⟨added, hqueue⟩

/-- The session after it was opened: forgetting everything, and perhaps the greeting. -/
theorem stateOf_start (s : Session B) :
    ∃ added, stateOf (start s) = { s.cleared with queue := s.cleared.queue.extend added } := by
  obtain ⟨added, hadded⟩ := stateOf_post (.message (greeting s.settings.versions)) s.cleared
  rw [ConnectionEvent.stateOf_enqueue] at hadded
  exact ⟨added, by rw [start_eq, stateOf_send]; exact hadded⟩

variable [Board B] [Channel C]

theorem Sized.apply {p : Connection B C} (h : p.1.Sized settings) (event : ConnectionEvent B C) :
    (event.apply p).1.Sized settings := by
  cases event with
  | start =>
    rw [ConnectionEvent.apply_start]
    refine ⟨h.coherent.start, ?_⟩
    obtain ⟨added, hadded⟩ := stateOf_start p.1
    rw [hadded]
    exact h.capacity
  | receive chunk =>
    rw [ConnectionEvent.apply_receive]
    refine ⟨h.coherent.receive chunk, ?_⟩
    obtain ⟨added, -, hqueue⟩ := queue_reception h.coherent chunk
    rw [stateOf_receive, queue_settle, hqueue]
    split
    · exact h.capacity
    · exact h.capacity
  | tick =>
    rw [ConnectionEvent.apply_tick]
    exact ⟨⟨h.coherent.settings_eq, h.coherent.recovery_eq, h.coherent.reachable⟩,
      (Line.capacity_tick _).trans h.capacity⟩
  | post posting =>
    rw [ConnectionEvent.apply_post]
    refine ⟨?_, ?_⟩
    · rw [ConnectionEvent.stateOf_enqueue]
      exact h.coherent.enqueue _
    · obtain ⟨added, hadded⟩ := stateOf_post posting p.1
      rw [hadded]
      exact h.capacity
  | boardChanges f =>
    exact ⟨⟨h.coherent.settings_eq, h.coherent.recovery_eq, h.coherent.reachable⟩, h.capacity⟩
  | channelChanges f => exact h

theorem Sized.run {p : Connection B C} (h : p.1.Sized settings)
    (events : List (ConnectionEvent B C)) :
    (ConnectionEvent.run events p).1.Sized settings := by
  induction events generalizing p with
  | nil => exact h
  | cons event events ih => exact ih (h.apply event)

omit [Channel C] in
/-- A session that can be reached from a new one with these settings, on whatever board and before
whatever channel. -/
def Attainable (settings : Settings) (s : Session B) : Prop :=
  ∃ (C : Type) (_ : Channel C) (board : B) (channel : C) (events : List (ConnectionEvent B C)),
    (ConnectionEvent.run events (.new settings board, channel)).1 = s

theorem Attainable.sized (h : Attainable settings s) : s.Sized settings := by
  obtain ⟨C, _, board, channel, events, rfl⟩ := h
  exact Sized.run (p := (Session.new settings board, channel)) (.new settings board) events

end Session
end PinBridge
