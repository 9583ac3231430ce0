/-
PinBridge/Proofs/Session/Service.lean

What a session is for, and what a chunk does for it.

A host sends commands, one image after the other, in chunks that end anywhere;
in between the board ticks, and the channel completes.  What is to come of it is
said without a session (`Service`): when a command is complete it is carried
out, the host is due its answer from the board as it is then, and a tick is
housekeeping.  Receiver, checks, queue and transmitter do not occur in this.

A session does this for a chunk as long as nothing finds the queue too full.
That is a condition on the messages, not on the chunk: a session that resyncs
takes a chunk in which a message is refused (`Session.refusals`).

Main statements: `Session.receive_served`, and `Session.actions_calls` for what
the board is asked meanwhile.
-/
import PinBridge.Proofs.Session.Fresh
import PinBridge.Proofs.Session.Halt
import PinBridge.Proofs.Session.Requests

namespace PinBridge

variable {B : Type}

/-! ### What is to be done -/

/-- Commands are carried out in turn; with the board comes what the host is due for all of them. -/
def serveAll [Board B] : List (Received .incoming) → B → B × Bytes
  | [], board => (board, [])
  | received :: rest, board =>
    let (board, due) := received.serve board
    let (board, more) := serveAll rest board
    (board, due ++ more)

/-- What may happen once a session is open. -/
inductive ServiceEvent where
  | receive (chunk : Bytes)
  | tick
  /-- The span on its way has arrived. -/
  | complete
  deriving DecidableEq, Repr

namespace ServiceEvent

def chunk : ServiceEvent → Bytes
  | .receive chunk => chunk
  | _ => []

/-- All bytes that come from the host. -/
def arrivals (events : List ServiceEvent) : Bytes := events.flatMap chunk

/-- The same event for a session before a recorder. -/
def onConnection : ServiceEvent → ConnectionEvent B Recorder
  | .receive chunk => .receive chunk
  | .tick => .tick
  | .complete => .channelChanges Recorder.complete

end ServiceEvent

/-- What has come of the commands so far. -/
structure Service (B : Type) where
  /-- How many bytes have come from the host. -/
  arrived : Nat
  board : B
  /-- All that the host is due. -/
  told : Bytes

namespace Service

variable [Board B]

/-- At first the host is due the greeting. -/
def new (settings : Settings) (board : B) : Service B :=
  ⟨0, board, (Session.greeting settings.versions).image⟩

/-- What becomes of it when the host sends these commands. -/
def apply (commands : List (Received .incoming)) : ServiceEvent → Service B → Service B
  | .receive chunk, s =>
    let arrived := s.arrived + chunk.length
    let completed := (completedBy arrived commands).drop (completedBy s.arrived commands).length
    let (board, due) := serveAll completed s.board
    ⟨arrived, board, s.told ++ due⟩
  | .tick, s => { s with board := Board.housekeeping s.board }
  | .complete, s => s

def run (commands : List (Received .incoming)) (events : List ServiceEvent) (s : Service B) :
    Service B :=
  events.foldl (fun s event => s.apply commands event) s

end Service

/-! ### Refused messages -/

/-- Whether something did not fit the queue. -/
def SessionError.isOverflow : SessionError → Bool
  | .refusal (.outgoing (.queue _)) | .link (.queue _) => true
  | _ => false

/-- The errors with which the messages are refused that a chunk hands over. -/
def Session.refusals [Board B] (chunk : Bytes) (s : Session B) : List SessionError :=
  (stateOf (Receiver.feed .stream (Reception.handle s.settings.board).audited chunk
    (s.receiver, s.opening, []))).2.2

namespace ConnectionEvent

variable {C : Type} [Board B] [Channel C]

/-- The errors of an event; of a chunk, those of the messages in it. -/
def errors : ConnectionEvent B C → Connection B C → List SessionError
  | .receive chunk, p => p.1.refusals chunk
  | event, p => (errorOf (event.perform p)).toList

/-- In no event the queue is found too full. -/
def neverFull : List (ConnectionEvent B C) → Connection B C → Bool
  | [], _ => true
  | event :: events, p =>
    (event.errors p).all (!·.isOverflow) && neverFull events (event.apply p)

end ConnectionEvent

/-! ### One chunk -/

section Chunk

variable [Board B] {limits : BoardLimits} {settings : Settings} {s : Session B}
  {messages : List (Received .incoming)}

/-- The command can be carried out, and does not end the session. -/
structure Received.Servable (limits : BoardLimits) (received : Received .incoming) : Prop where
  genuine : received.Genuine
  valid : received.message.Valid limits
  endsSession_eq_false : received.message.endsSession = false

/-- Handling such commands in turn is serving them, unless the queue is found too full. -/
theorem forM_handle (hmessages : ∀ received ∈ messages, received.Servable limits) (b : Bench B) :
    messages.forM (Reception.handle limits) ⟨b, false⟩
        = .ok () ⟨⟨(serveAll messages b.board).1, b.queue.extend (serveAll messages b.board).2⟩,
            false⟩ ∨
      ∃ full r, messages.forM (Reception.handle limits) ⟨b, false⟩
        = .error (.refusal (.outgoing (.queue full))) r := by
  induction messages generalizing b with
  | nil =>
    refine .inl ?_
    rw [serveAll, Queue.extend_nil]
    rfl
  | cons received messages ih =>
    obtain ⟨hreceived, hrest⟩ := List.forall_mem_cons.1 hmessages
    have hhandle : Reception.handle limits received ⟨b, false⟩ = _ :=
      Reception.handle_of_running rfl received
    rw [Handler.forM_cons, EStateM.bind, hhandle]
    rcases respond_of_valid hreceived.valid b with hrespond | ⟨full, b', hrespond⟩
    · simp only [hrespond, hreceived.endsSession_eq_false]
      rcases ih hrest ⟨(received.serve b.board).1, b.queue.extend (received.serve b.board).2⟩ with
        hok | herror
      · refine .inl ?_
        rw [hok, Queue.extend_extend]
        rfl
      · exact .inr herror
    · simp only [hrespond]
      exact .inr ⟨full, _, rfl⟩

/-- A session on a board that is watched refuses the same messages. -/
theorem Session.refusals_watched (chunk : Bytes) (s : Session B) :
    s.watched.refusals chunk = s.refusals chunk := by
  have hfollows : Handler.Follows (Prod.map (Reception.onBoard Monitored.board) id)
      (Reception.handle (B := B) s.settings.board).audited
      (Reception.handle (B := Monitored B) s.settings.board).audited :=
    (follows_handle Monitored.follows_board s.settings.board).audited
  -- the session is the watched one without the calls
  have hsame : s.refusals chunk = (stateOf (Receiver.feed .stream
      (Reception.handle s.settings.board).audited chunk (s.receiver,
        Prod.map (Reception.onBoard Monitored.board) id (s.watched.opening, [])))).2.2 := rfl
  rw [hsame, Receiver.feed_map hfollows, stateOf_mapState]
  rfl

/-- **A chunk serves the commands that become complete with it**, and what is left of it is held. -/
theorem Session.receive_served (h : s.Coherent settings) (hrunning : s.receiver.halted = false)
    (hmessages : ∀ received ∈ messages, received.Servable settings.board) {chunk : Bytes}
    (harrived : s.receiver.held ++ chunk <+: messages.flatMap Received.wire)
    (hroom : ∀ e ∈ s.refusals chunk, e.isOverflow = false) :
    let completed := completedBy (s.receiver.held ++ chunk).length messages
    ∃ receiver : Receiver,
      receive chunk s = .ok () { s with
        receiver
        board := (serveAll completed s.board).1
        queue := s.queue.extend (serveAll completed s.board).2 } ∧
      receiver.halted = false ∧
      completed.flatMap Received.wire ++ receiver.held = s.receiver.held ++ chunk := by
  intro completed
  have hgenuine : ∀ received ∈ messages, received.Genuine := fun received hmem =>
    (hmessages received hmem).genuine
  have hcompleted : ∀ received ∈ completed, received.Servable s.settings.board :=
    fun received hmem => h.settings_eq ▸ hmessages received (mem_of_mem_completedBy hmem)
  rcases forM_handle hcompleted ⟨s.board, s.queue⟩ with hok | ⟨full, r, herror⟩
  · obtain ⟨receiver, hfeed, hhalted, hheld⟩ :=
      h.reachable.feed_arrived hrunning SessionError.stream hgenuine harrived hok
    refine ⟨receiver, ?_, hhalted, hheld⟩
    have hreception : s.reception chunk = .ok () (receiver, _) := hfeed
    rw [receive_eq, hreception]
    rfl
  · -- the loop stops at an overflow, which would be among the refusals
    have hmem : _ ∈ s.refusals chunk :=
      h.reachable.mem_errors hrunning SessionError.stream hgenuine harrived herror
    have hfits := hroom _ hmem
    cases hfits

end Chunk

/-! ### Calls -/

/-- The action that a call asks for, if it asks for one. -/
def Call.action? : Call → Option Action
  | .act a => some a
  | _ => none

section Calls

variable [Board B]

/-- Consulting a board is no action. -/
theorem actions_consulted (command : Command) (m : Monitored B) :
    (command.consulted m).calls.filterMap Call.action? = m.calls.filterMap Call.action? := by
  have hasked : ∀ answer : Answer, answer.calls.filterMap Call.action? = [] := by
    intro answer
    cases answer <;> rfl
  rw [← (command.ask_eq m).1, calls_ask, List.filterMap_append, hasked, List.append_nil]

/-- Serving commands is one action for each. -/
theorem actions_serveAll {limits : BoardLimits} {messages : List (Received .incoming)}
    (hmessages : ∀ received ∈ messages, received.Servable limits) (m : Monitored B) :
    ((serveAll messages m).1.calls.filterMap Call.action?).map some
      = (m.calls.filterMap Call.action?).map some ++ messages.map (·.message.deed) := by
  induction messages generalizing m with
  | nil => exact (List.append_nil _).symm
  | cons received messages ih =>
    obtain ⟨hreceived, hrest⟩ := List.forall_mem_cons.1 hmessages
    obtain ⟨a, hdeed, -⟩ := Command.action_of_valid hreceived.valid
    have hserve : (received.serve m).1.calls.filterMap Call.action?
        = m.calls.filterMap Call.action? ++ [a] := by
      rw [Received.serve, hdeed]
      show ((received.message.consulted (Board.perform a m)).calls.filterMap Call.action?) = _
      rw [actions_consulted]
      show (m.calls ++ [Call.act a]).filterMap Call.action? = _
      rw [List.filterMap_append]
      rfl
    show ((serveAll messages (received.serve m).1).1.calls.filterMap Call.action?).map some = _
    rw [ih hrest, hserve, List.map_append, List.append_assoc]
    exact congrArg (_ ++ · :: messages.map _) hdeed.symm

/-- The actions of a chunk are those that its commands ask for. -/
theorem Session.actions_calls {settings : Settings} {s : Session B} (h : s.Coherent settings)
    (hrunning : s.receiver.halted = false) {messages : List (Received .incoming)}
    (hmessages : ∀ received ∈ messages, received.Servable settings.board) {chunk : Bytes}
    (harrived : s.receiver.held ++ chunk <+: messages.flatMap Received.wire)
    (hroom : ∀ e ∈ s.refusals chunk, e.isOverflow = false) :
    ((s.calls chunk).filterMap Call.action?).map some
      = (completedBy (s.receiver.held ++ chunk).length messages).map (·.message.deed) := by
  have hwatched : s.watched.Coherent settings := ⟨h.settings_eq, h.recovery_eq, h.reachable⟩
  have hroom' : ∀ e ∈ s.watched.refusals chunk, e.isOverflow = false := by
    rw [s.refusals_watched chunk]
    exact hroom
  obtain ⟨receiver, hreceive, -⟩ :=
    Session.receive_served (s := s.watched) hwatched hrunning hmessages harrived hroom'
  have hcompleted : ∀ received ∈ completedBy (s.receiver.held ++ chunk).length messages,
      received.Servable settings.board := fun received hmem =>
    hmessages received (mem_of_mem_completedBy hmem)
  rw [calls, hreceive]
  exact actions_serveAll hcompleted ⟨s.board, []⟩

end Calls

end PinBridge
