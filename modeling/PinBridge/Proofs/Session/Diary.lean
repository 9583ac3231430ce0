/-
PinBridge/Proofs/Session/Diary.lean

All calls that a session makes to its board.

A session on a board that is watched is kept together with all messages that
its receiver has handed over, refused or not, carried out or not (`Diary`).
The calls on the board are accounted for by what the session did: it handled
one of these messages, or it did its housekeeping (`Deed`).  Nothing is called
on the board without such a deed, and handling a message calls only what the
message allows.

Main statement: `calls_allowed`.
-/
import PinBridge.Proofs.Session.Limits

namespace PinBridge

variable {B : Type}

/-! ### Deeds -/

/-- Something that a session did, and what it called on its board for it. -/
inductive Deed where
  | housekeeping
  | handled (received : Received .incoming) (calls : List Call)

namespace Deed

def calls : Deed → List Call
  | .housekeeping => [.housekeeping]
  | .handled _ calls => calls

/-- The message that was handled, if it was that. -/
def message? : Deed → Option (Received .incoming)
  | .housekeeping => none
  | .handled received _ => some received

/-- A message was handled that lay on the wire as it should, and only what it allows was called. -/
def Lawful (limits : BoardLimits) : Deed → Prop
  | .housekeeping => True
  | .handled received calls => received.Genuine ∧ ∀ call ∈ calls, call.Allowed limits received

end Deed

/-- Lawful deeds account for calls and for messages, in the order in which they came. -/
def Accounted (limits : BoardLimits) (calls : List Call) (messages : List (Received .incoming)) :
    Prop :=
  ∃ deeds : List Deed, (∀ deed ∈ deeds, deed.Lawful limits) ∧
    calls = deeds.flatMap Deed.calls ∧ messages = deeds.filterMap Deed.message?

namespace Accounted

variable {limits : BoardLimits} {calls more : List Call}
  {messages : List (Received .incoming)} {received : Received .incoming}

theorem nil : Accounted limits [] [] := ⟨[], List.forall_mem_nil _, rfl, rfl⟩

/-- One more deed. -/
theorem append (h : Accounted limits calls messages) (deed : Deed) (hdeed : deed.Lawful limits) :
    Accounted limits (calls ++ deed.calls) (messages ++ deed.message?.toList) := by
  obtain ⟨deeds, hlawful, rfl, rfl⟩ := h
  refine ⟨deeds ++ [deed], ?_, ?_, ?_⟩
  · exact List.forall_mem_append.2 ⟨hlawful, List.forall_mem_singleton.2 hdeed⟩
  · rw [List.flatMap_append, List.flatMap_singleton]
  · rw [List.filterMap_append]
    cases deed <;> rfl

end Accounted

/-! ### The diary -/

section Messages

variable [Board B]

/-- The messages that a chunk hands over, whether they are carried out or not. -/
def Session.messages (chunk : Bytes) (s : Session B) : List (Received .incoming) :=
  (stateOf (Receiver.feed .stream (Reception.handle s.settings.board).recorded chunk
    (s.receiver, s.opening, []))).2.2

/-- The messages that an event hands over. -/
def SessionEvent.messages : SessionEvent B → Session (Monitored B) → List (Received .incoming)
  | .receive chunk, s => s.messages chunk
  | _, _ => []

end Messages

/-- A session on a board that is watched, and all messages handed over so far. -/
structure Diary (B : Type) where
  session : Session (Monitored B)
  messages : List (Received .incoming)

namespace Diary

variable [Board B]

/-- A new session, of which nothing is known. -/
def new (settings : Settings) (board : B) : Diary B := ⟨(Session.new settings board).watched, []⟩

/-- An event, and the messages that it hands over. -/
def apply (event : SessionEvent B) (d : Diary B) : Diary B :=
  ⟨event.watched.apply d.session, d.messages ++ event.messages d.session⟩

/-- One event after the other. -/
def run (events : List (SessionEvent B)) (d : Diary B) : Diary B :=
  events.foldl (fun d event => d.apply event) d

/-- The diary does not interfere. -/
theorem unwatched_run (events : List (SessionEvent B)) (d : Diary B) :
    (run events d).session.unwatched = SessionEvent.run events d.session.unwatched := by
  induction events generalizing d with
  | nil => rfl
  | cons event events ih =>
    show (run events (d.apply event)).session.unwatched
      = SessionEvent.run events (event.apply d.session.unwatched)
    rw [ih, event.apply_unwatched]
    rfl

end Diary

/-! ### Everything is accounted for -/

namespace Session

variable [Board B] {settings : Settings} {s : Session (Monitored B)}

/-- Handling a message is a lawful deed. -/
theorem accounted_handle (limits : BoardLimits) {received : Received .incoming}
    (h : received.Genuine) {r : Reception (Monitored B)} {messages : List (Received .incoming)}
    (hr : Accounted limits r.bench.board.calls messages) :
    Accounted limits (stateOf (Reception.handle limits received r)).bench.board.calls
      (messages ++ [received]) := by
  rw [Reception.bench_handle]
  split
  · -- the session has ended, and nothing is called
    have hdeed : (Deed.handled received []).Lawful limits := ⟨h, List.forall_mem_nil _⟩
    have hnext := hr.append _ hdeed
    rw [Deed.calls, List.append_nil] at hnext
    exact hnext
  · obtain ⟨calls, hallowed, hcalls⟩ := calls_respond limits h r.bench
    have hdeed : (Deed.handled received calls).Lawful limits := ⟨h, hallowed⟩
    rw [hcalls]
    exact hr.append _ hdeed

/-- A chunk hands messages over, and calls on the board what they allow. -/
theorem accounted_receive (h : s.Coherent settings) {messages : List (Received .incoming)}
    (hs : Accounted settings.board s.board.calls messages) (chunk : Bytes) :
    Accounted settings.board (stateOf (receive chunk s)).board.calls
      (messages ++ s.messages chunk) := by
  let handle : Handler .incoming SessionError (Reception (Monitored B)) :=
    Reception.handle s.settings.board
  have hkeeps : handle.recorded.Keeps fun (r, record) =>
      Accounted settings.board r.bench.board.calls (messages ++ record) := by
    rintro received ⟨r, record⟩ hgenuine hr
    rw [Handler.stateOf_recorded]
    show Accounted settings.board (stateOf (handle received r)).bench.board.calls
      (messages ++ (record ++ [received]))
    rw [← List.append_assoc, ← h.settings_eq]
    exact accounted_handle s.settings.board hgenuine (h.settings_eq ▸ hr)
  have hstart : Accounted settings.board s.opening.bench.board.calls (messages ++ []) := by
    rw [List.append_nil]
    exact hs
  -- the record does not interfere with what is handled
  have hrecord : s.reception chunk = mapState (Prod.map id Prod.fst)
      (Receiver.feed .stream handle.recorded chunk (s.receiver, s.opening, [])) :=
    Receiver.feed_map handle.follows_recorded chunk s.receiver (s.opening, [])
  rw [stateOf_receive, board_settle, hrecord, stateOf_mapState]
  exact h.receiver.keeps_feed hkeeps chunk hstart

end Session

namespace Diary

variable {settings : Settings}

/-- What is called is accounted for by what was handed over. -/
def Complete (settings : Settings) (d : Diary B) : Prop :=
  Accounted settings.board d.session.board.calls d.messages

/-- An event in which no message is handed over and nothing is called. -/
theorem Complete.of_same {d d' : Diary B} (h : d.Complete settings)
    (hcalls : d'.session.board.calls = d.session.board.calls)
    (hmessages : d'.messages = d.messages ++ []) : d'.Complete settings := by
  rw [Complete, hcalls, hmessages, List.append_nil]
  exact h

variable [Board B]

theorem Complete.apply {d : Diary B} (h : d.Complete settings) (hs : d.session.Coherent settings)
    (event : SessionEvent B) : (d.apply event).Complete settings := by
  have henqueue : ∀ f : Queue → Except LinkError Queue,
      (stateOf (Session.enqueue f d.session)).board = d.session.board := by
    intro f
    rw [Session.enqueue_eq]
    cases f d.session.queue <;> rfl
  cases event with
  | start =>
    refine h.of_same (congrArg Monitored.calls ?_) rfl
    show (stateOf (Session.start d.session)).board = d.session.board
    rw [Session.start_eq, Session.send_eq]
    split <;> rfl
  | receive chunk => exact Session.accounted_receive hs h chunk
  | tick channel =>
    have hboard : ((d.apply (.tick channel)).session).board
        = Board.housekeeping d.session.board := by
      show (stateOf (Session.tick (d.session, channel))).1.board = _
      rw [Session.stateOf_tick]
      rfl
    have hnext := Accounted.append h .housekeeping trivial
    show Accounted settings.board ((d.apply (.tick channel)).session).board.calls (d.messages ++ [])
    rw [hboard]
    exact hnext
  | send r =>
    refine h.of_same (congrArg Monitored.calls ?_) rfl
    show (stateOf (Session.send r d.session)).board = d.session.board
    rw [Session.stateOf_send]
    exact henqueue _
  | sendLevel pin level => exact h.of_same (congrArg Monitored.calls (henqueue _)) rfl
  | sendBacklog uart remaining => exact h.of_same (congrArg Monitored.calls (henqueue _)) rfl
  | boardChanges f => exact h.of_same rfl rfl

/-- **Whatever happens, the diary stays complete.** -/
theorem complete_run (settings : Settings) (board : B) (events : List (SessionEvent B)) :
    (run events (.new settings board)).Complete settings := by
  have hnew : (new settings board).session.Coherent settings ∧
      (new settings board).Complete settings := ⟨⟨rfl, rfl, .new settings.recovery⟩, .nil⟩
  -- coherence goes along: it makes the messages that are handed over whole ones
  generalize new settings board = d at hnew ⊢
  induction events generalizing d with
  | nil => exact hnew.2
  | cons event events ih =>
    exact ih (d.apply event) ⟨hnew.1.apply event.watched, hnew.2.apply hnew.1 event⟩

end Diary

/-- **A board is only ever driven within its limits.**  Whatever happens to a session, and whatever
bytes it is given, every call on its board is housekeeping or is made while a received message is
handled, and is one that the message allows: every pin, PWM channel and UART that it names is below
the board's limits, a UART gets the trailer of the message, which has between 1 and 256 bytes, a
pin is unbound from its PWM channel exactly if the message says so, a fraction has two bits, and
the board is reset only by a message with the right magic number.  A session that is not watched
does the same. -/
theorem calls_allowed [Board B] (settings : Settings) (board : B)
    (events : List (SessionEvent B)) :
    let diary := Diary.run events (.new settings board)
    diary.session.unwatched = SessionEvent.run events (.new settings board) ∧
      ∃ deeds : List Deed,
        diary.session.board.calls = deeds.flatMap Deed.calls ∧
        diary.messages = deeds.filterMap Deed.message? ∧
        ∀ deed ∈ deeds, deed.Lawful settings.board := by
  intro diary
  obtain ⟨deeds, hlawful, hcalls, hmessages⟩ := Diary.complete_run settings board events
  exact ⟨Diary.unwatched_run events _, deeds, hcalls, hmessages, hlawful⟩

end PinBridge
