/-
PinBridge/Proofs/Session/Events.lean

What may happen to a session, and what it can become.

A session is opened, takes chunks, ticks before some channel, and is asked to
send messages, in any order and whichever of these fail; in between its board
may change by itself.  `SessionEvent.apply` leaves behind what the event
leaves, failed or not, and `SessionEvent.run` does so for one event after the
other.

For each event one equation says what becomes of the parts of the session
(`receive_eq`, `start_eq`, `send_eq`, `stateOf_tick`).

Main statement: `coherent_run`, in every session that can be reached the
settings are the ones it was made with, and the receiver is one that can be
reached and recovers as the settings say.
-/
import PinBridge.Session
import PinBridge.Proofs.Line.Backed
import PinBridge.Proofs.Receiver.Handled

namespace PinBridge

/-- What may happen to a session. -/
inductive SessionEvent (B : Type) : Type 1 where
  | start
  | receive (chunk : Bytes)
  /-- A tick before some channel, which need not be the one of an earlier tick. -/
  | tick {C : Type} [Channel C] (channel : C)
  | send (r : Report)
  | sendLevel (pin : UInt8) (level : Bool)
  | sendBacklog (uart : UInt8) (remaining : UInt16)
  /-- The board changes without being told to. -/
  | boardChanges (f : B → B)

/-! ### Handling -/

namespace Reception

variable {B : Type} [Board B]

/-- A message that is handled after the session has ended changes nothing. -/
theorem handle_of_ended {limits : BoardLimits} {r : Reception B} (hended : r.ended = true)
    (received : Received .incoming) : handle limits received r = .ok () r := by
  rw [handle, if_pos hended]

/-- Until then handling a message is responding to it. -/
theorem handle_of_running {limits : BoardLimits} {r : Reception B} (hended : r.ended = false)
    (received : Received .incoming) :
    handle limits received r =
      match respond limits received.message received.wire r.bench with
      | .ok () bench => .ok () ⟨bench, received.message.endsSession⟩
      | .error e bench => .error (.refusal e) ⟨bench, false⟩ := by
  unfold handle
  cases hrespond : respond limits received.message received.wire r.bench with
  | ok _ bench => simp only [hended, Bool.false_eq_true, if_false]
  | error e bench => simp only [hended, Bool.false_eq_true, if_false]

/-- What a handled message makes of the bench. -/
theorem bench_handle (limits : BoardLimits) (received : Received .incoming) (r : Reception B) :
    (stateOf (handle limits received r)).bench =
      if r.ended then r.bench
      else stateOf (respond limits received.message received.wire r.bench) := by
  cases hended : r.ended with
  | true =>
    rw [handle_of_ended hended]
    rfl
  | false =>
    rw [handle_of_running hended]
    cases respond limits received.message received.wire r.bench <;> rfl

end Reception

namespace Session

variable {B : Type}

/-! ### Sending -/

theorem enqueue_eq (f : Queue → Except LinkError Queue) (s : Session B) :
    enqueue f s =
      match f s.queue with
      | .ok queue => .ok () { s with queue }
      | .error e => .error e s := rfl

theorem send_eq (r : Report) (s : Session B) :
    send r s =
      match s.queue.send r with
      | .ok queue => .ok () { s with queue }
      | .error e => .error (.link e) s := by
  show EStateM.adaptExcept SessionError.link (enqueue (Queue.send r)) s = _
  rw [EStateM.adaptExcept, enqueue_eq]
  cases s.queue.send r <;> rfl

/-- The session after something was queued, or was not. -/
theorem stateOf_enqueue (f : Queue → Except LinkError Queue) (s : Session B) :
    stateOf (enqueue f s) = s ∨
      ∃ queue, f s.queue = .ok queue ∧ stateOf (enqueue f s) = { s with queue } := by
  rw [enqueue_eq]
  cases f s.queue with
  | ok queue => exact .inr ⟨queue, rfl, rfl⟩
  | error e => exact .inl rfl

theorem stateOf_send (r : Report) (s : Session B) :
    stateOf (send r s) = stateOf (enqueue (Queue.send r) s) := by
  rw [send_eq, enqueue_eq]
  cases s.queue.send r <;> rfl

/-! ### Starting -/

/-- A session that is about to announce the connection. -/
def cleared (s : Session B) : Session B := { s.dropOutput with receiver := s.receiver.reset }

/-- Starting is forgetting everything, and then sending the greeting. -/
theorem start_eq (s : Session B) : start s = send (greeting s.settings.versions) s.cleared := rfl

/-! ### Receiving -/

section Settle

variable (s : Session B) (receiver : Receiver) (r : Reception B)

@[simp] theorem settings_settle : (s.settle receiver r).settings = s.settings := by
  unfold settle
  cases r.ended <;> rfl

@[simp] theorem board_settle : (s.settle receiver r).board = r.bench.board := by
  unfold settle
  cases r.ended <;> rfl

@[simp] theorem receiver_settle :
    (s.settle receiver r).receiver = if r.ended then receiver.halt else receiver := by
  unfold settle
  cases r.ended <;> rfl

@[simp] theorem queue_settle :
    (s.settle receiver r).queue = if r.ended then r.bench.queue.clear else r.bench.queue := by
  unfold settle
  cases r.ended <;> rfl

@[simp] theorem transmitter_settle :
    (s.settle receiver r).transmitter = if r.ended then s.transmitter.reset else s.transmitter := by
  unfold settle
  cases r.ended <;> rfl

end Settle

section Receive

variable [Board B]

/-- What a chunk works on. -/
def opening (s : Session B) : Reception B := ⟨⟨s.board, s.queue⟩, false⟩

/-- What a chunk does to the receiver, to the board and to the queue. -/
def reception (chunk : Bytes) (s : Session B) :
    EStateM.Result SessionError (Receiver × Reception B) Unit :=
  Receiver.feed .stream (Reception.handle s.settings.board) chunk (s.receiver, s.opening)

theorem receive_eq (chunk : Bytes) (s : Session B) :
    receive chunk s = mapState (fun left => s.settle left.1 left.2) (s.reception chunk) := by
  rw [receive, ← opening, ← reception]
  cases s.reception chunk <;> rfl

/-- The session that a chunk leaves behind. -/
theorem stateOf_receive (chunk : Bytes) (s : Session B) :
    stateOf (receive chunk s)
      = s.settle (stateOf (s.reception chunk)).1 (stateOf (s.reception chunk)).2 := by
  rw [receive_eq, stateOf_mapState]

/-! ### Ticking -/

/-- A session's line before a channel. -/
def line {C : Type} (s : Session B) (channel : C) : Line C := ⟨s.transmitter, s.queue, channel⟩

/-- A session after its line was in use. -/
def afterTick {C : Type} (s : Session B) (l : Line C) : Session B :=
  { s with board := Board.housekeeping s.board, transmitter := l.transmitter, queue := l.queue }

theorem tick_eq {C : Type} [Channel C] (s : Session B) (channel : C) :
    tick (s, channel) =
      match Line.tick (s.line channel) with
      | .ok n l => .ok n (s.afterTick l, l.channel)
      | .error e l => .error (.link e) (s.afterTick l, l.channel) := rfl

theorem stateOf_tick {C : Type} [Channel C] (s : Session B) (channel : C) :
    (stateOf (tick (s, channel))).1 = s.afterTick (Line.left (Line.tick (s.line channel))) := by
  rw [tick_eq]
  cases Line.tick (s.line channel) <;> rfl

end Receive
end Session

/-! ### Runs -/

namespace SessionEvent

open Session

variable {B : Type}

section Run

variable [Board B]

/-- The session that an event leaves behind, whether it fails or not. -/
def apply : SessionEvent B → Session B → Session B
  | .start, s => stateOf (Session.start s)
  | .receive chunk, s => stateOf (Session.receive chunk s)
  | @tick _ _ _ channel, s => (stateOf (Session.tick (s, channel))).1
  | .send r, s => stateOf (Session.send r s)
  | .sendLevel pin level, s => stateOf (enqueue (Queue.sendLevel pin level) s)
  | .sendBacklog uart remaining, s => stateOf (enqueue (Queue.sendBacklog uart remaining) s)
  | .boardChanges f, s => { s with board := f s.board }

/-- One event after the other. -/
def run (events : List (SessionEvent B)) (s : Session B) : Session B :=
  events.foldl (fun s event => event.apply s) s

/-- What every event preserves, a run preserves. -/
theorem run_induction {P : Session B → Prop}
    (hstep : ∀ (event : SessionEvent B) (s : Session B), P s → P (event.apply s))
    (events : List (SessionEvent B)) {s : Session B} (hs : P s) : P (run events s) := by
  induction events generalizing s with
  | nil => exact hs
  | cons event events ih => exact ih (hstep event s hs)

end Run
end SessionEvent

/-! ### What a session can become -/

namespace Session

variable {B : Type} {settings : Settings} {s : Session B}

/-- A session that can be reached from a new one with these settings, on whatever board. -/
def Reachable [Board B] (settings : Settings) (s : Session B) : Prop :=
  ∃ (board : B) (events : List (SessionEvent B)), s = SessionEvent.run events (.new settings board)

/-- What holds of every session that can be reached. -/
structure Coherent (settings : Settings) (s : Session B) : Prop where
  settings_eq : s.settings = settings
  recovery_eq : s.receiver.recovery = settings.recovery
  reachable : Receiver.Reachable .incoming s.receiver

namespace Coherent

/-- The receiver of such a session is coherent. -/
theorem receiver (h : Coherent settings s) : Receiver.Coherent .incoming s.receiver :=
  h.reachable.coherent

theorem new (settings : Settings) (board : B) : Coherent settings (.new settings board) :=
  ⟨rfl, rfl, .new settings.recovery⟩

theorem enqueue (h : Coherent settings s) (f : Queue → Except LinkError Queue) :
    Coherent settings (stateOf (Session.enqueue f s)) := by
  rcases stateOf_enqueue f s with hsame | ⟨queue, -, hqueue⟩
  · rw [hsame]
    exact h
  · rw [hqueue]
    exact ⟨h.settings_eq, h.recovery_eq, h.reachable⟩

theorem start (h : Coherent settings s) : Coherent settings (stateOf (Session.start s)) := by
  have hcleared : Coherent settings s.cleared :=
    ⟨h.settings_eq, h.recovery_eq, h.reachable.reset⟩
  rw [start_eq, stateOf_send]
  exact hcleared.enqueue _

variable [Board B]

theorem receive (h : Coherent settings s) (chunk : Bytes) :
    Coherent settings (stateOf (Session.receive chunk s)) := by
  have hleft : (stateOf (s.reception chunk)).1 = Receiver.left (s.reception chunk) := by
    cases s.reception chunk <;> rfl
  have hreachable : Receiver.Reachable .incoming (Receiver.left (s.reception chunk)) :=
    h.reachable.feed _ _ chunk _
  have hrecovery : (Receiver.left (s.reception chunk)).recovery = settings.recovery :=
    (Receiver.settled_recovery settings.recovery).feed h.recovery_eq chunk _
  rw [stateOf_receive, hleft]
  refine ⟨(settings_settle ..).trans h.settings_eq, ?_, ?_⟩
  · rw [receiver_settle]
    split
    · exact hrecovery
    · exact hrecovery
  · rw [receiver_settle]
    split
    · exact hreachable.halt
    · exact hreachable

theorem apply (h : Coherent settings s) (event : SessionEvent B) :
    Coherent settings (event.apply s) := by
  cases event with
  | start => exact h.start
  | receive chunk => exact h.receive chunk
  | tick channel =>
    rw [SessionEvent.apply, stateOf_tick]
    exact ⟨h.settings_eq, h.recovery_eq, h.reachable⟩
  | send r =>
    rw [SessionEvent.apply, stateOf_send]
    exact h.enqueue _
  | sendLevel pin level => exact h.enqueue _
  | sendBacklog uart remaining => exact h.enqueue _
  | boardChanges f => exact ⟨h.settings_eq, h.recovery_eq, h.reachable⟩

end Coherent

variable [Board B]

/-- **Every session that can be reached is coherent.** -/
theorem coherent_run (settings : Settings) (board : B) (events : List (SessionEvent B)) :
    Coherent settings (SessionEvent.run events (.new settings board)) :=
  SessionEvent.run_induction (fun event _ h => h.apply event) events (.new settings board)

theorem Reachable.coherent (h : Reachable settings s) : Coherent settings s := by
  obtain ⟨board, events, rfl⟩ := h
  exact coherent_run settings board events

end Session
end PinBridge
