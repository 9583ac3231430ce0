/-
PinBridge/Proofs/Session/Serving.lean

A session keeps the service.

A session before a recorder and the service run side by side (`Serving`): they
have the same board, what has arrived and is not complete is held by the
receiver, and what the recorder has been given and the queue still holds is
what the host is due.  Chunks, ticks and completions keep this, one lemma for
each (`receive`, `tick`, `complete`), and so do runs.  Opening the session
brings it about, because only the greeting is sent.

Of a run the calls are read off one event after the other; those of a chunk are
what the commands ask for that become complete with it (`Asked`).

Main statement: `service_kept`.
-/
import PinBridge.Proofs.Line.Delivery
import PinBridge.Proofs.Session.Service

namespace PinBridge

variable {B : Type} [Board B] {settings : Settings} {commands : List (Received .incoming)}
  {arrived : Bytes} {p : Connection B Recorder} {service : Service B}

/-! ### Side by side -/

/-- The session has come as far with the commands as the service, and what it has written and
queued is what the host is due. -/
structure Serving (settings : Settings) (commands : List (Received .incoming)) (arrived : Bytes)
    (p : Connection B Recorder) (service : Service B) : Prop where
  coherent : p.1.Coherent settings
  running : p.1.receiver.halted = false
  held : (completedBy arrived.length commands).flatMap Received.wire ++ p.1.receiver.held = arrived
  arrived_eq : service.arrived = arrived.length
  board : p.1.board = service.board
  delivered : Delivered ⟨p.1.line p.2, service.told⟩

/-- What is asked of the board in a list of calls is what these commands ask for. -/
def Asked (calls : List Call) (commands : List (Received .incoming)) : Prop :=
  (calls.filterMap Call.action?).map some = commands.map (·.message.deed)

theorem Asked.append {calls more : List Call} {first rest : List (Received .incoming)}
    (h : Asked calls first) (h' : Asked more rest) : Asked (calls ++ more) (first ++ rest) := by
  rw [Asked, List.filterMap_append, List.map_append, List.map_append, h, h']

namespace Serving

/-- A chunk is taken, and serves the commands that become complete with it. -/
theorem receive (h : Serving settings commands arrived p service)
    (hcommands : ∀ received ∈ commands, received.Servable settings.board) (chunk : Bytes)
    (harrived : arrived ++ chunk <+: commands.flatMap Received.wire)
    (hroom : ∀ e ∈ p.1.refusals chunk, e.isOverflow = false) :
    ∃ s completed, Session.receive chunk p.1 = .ok () s ∧
      Serving settings commands (arrived ++ chunk) (s, p.2)
        (service.apply commands (.receive chunk)) ∧
      completedBy (arrived ++ chunk).length commands
        = completedBy arrived.length commands ++ completed ∧
      Asked (p.1.calls chunk) completed := by
  obtain ⟨hawaited, hcompleted⟩ := completedBy_append h.held harrived
  let awaited := commands.drop (completedBy arrived.length commands).length
  have hservable : ∀ received ∈ awaited, received.Servable settings.board := fun received hmem =>
    hcommands received (List.mem_of_mem_drop hmem)
  obtain ⟨receiver, hreceive, hhalted, hheld⟩ :=
    Session.receive_served h.coherent h.running hservable hawaited hroom
  have hcoherent := h.coherent.receive chunk
  rw [hreceive] at hcoherent
  have hservice : service.apply commands (.receive chunk)
      = ⟨(arrived ++ chunk).length,
          (serveAll (completedBy (p.1.receiver.held ++ chunk).length awaited) p.1.board).1,
          service.told ++
            (serveAll (completedBy (p.1.receiver.held ++ chunk).length awaited) p.1.board).2⟩ := by
    rw [Service.apply, h.arrived_eq, ← List.length_append, hcompleted, List.drop_left, h.board]
  refine ⟨_, _, hreceive, ⟨hcoherent, hhalted, ?_, ?_, ?_, ?_⟩, hcompleted,
    Session.actions_calls h.coherent h.running hservable hawaited hroom⟩
  · rw [hcompleted, List.flatMap_append, List.append_assoc, hheld, ← List.append_assoc, h.held]
  · rw [hservice]
  · rw [hservice]
  · rw [hservice]
    exact h.delivered.extend _

/-- A tick is housekeeping, and writes what comes next. -/
theorem tick (h : Serving settings commands arrived p service) :
    (∃ n, answerOf (Session.tick p) = .ok n) ∧
      Serving settings commands arrived (ConnectionEvent.tick.apply p)
        (service.apply commands .tick) := by
  obtain ⟨spans, next, htick, -⟩ := (p.1.line p.2).tick_recorder
  refine ⟨⟨spans.flatten.length, ?_⟩, ?_⟩
  · show answerOf (Session.tick (p.1, p.2)) = _
    rw [Session.tick_eq, htick]
    rfl
  · rw [ConnectionEvent.apply_tick]
    exact ⟨⟨h.coherent.settings_eq, h.coherent.recovery_eq, h.coherent.reachable⟩, h.running,
      h.held, h.arrived_eq, congrArg Board.housekeeping h.board, h.delivered.tick⟩

omit [Board B] in
/-- When a span has arrived, nothing changes but the recorder. -/
theorem complete (h : Serving settings commands arrived p service) :
    Serving settings commands arrived (p.1, p.2.complete) service :=
  ⟨h.coherent, h.running, h.held, h.arrived_eq, h.board, h.delivered.apply .complete⟩

omit [Board B] in
/-- Without a chunk nothing becomes complete. -/
theorem idle (h : Serving settings commands arrived p service) :
    Serving settings commands (arrived ++ []) p service ∧
      completedBy (arrived ++ []).length commands = completedBy arrived.length commands ++ [] := by
  rw [List.append_nil, List.append_nil]
  exact ⟨h, rfl⟩

/-- **Whatever happens, the session goes on keeping the service**, and asks of its board what the
commands ask for that become complete. -/
theorem apply (h : Serving settings commands arrived p service)
    (hcommands : ∀ received ∈ commands, received.Servable settings.board) (event : ServiceEvent)
    (harrived : arrived ++ event.chunk <+: commands.flatMap Received.wire)
    (hroom : (event.onConnection.errors p).all (!·.isOverflow) = true) :
    ∃ completed,
      (∃ n, (event.onConnection.observation p).answer = .ok n) ∧
      Serving settings commands (arrived ++ event.chunk) (event.onConnection.apply p)
        (service.apply commands event) ∧
      completedBy (arrived ++ event.chunk).length commands
        = completedBy arrived.length commands ++ completed ∧
      Asked (event.onConnection.observation p).calls completed := by
  cases event with
  | receive chunk =>
    have hfits : ∀ e ∈ p.1.refusals chunk, e.isOverflow = false := fun e hmem => by
      simpa using List.all_eq_true.1 hroom e hmem
    obtain ⟨s, completed, hreceive, hserving, hcompleted, hasked⟩ :=
      h.receive hcommands chunk harrived hfits
    refine ⟨completed, ⟨0, ?_⟩, ?_, hcompleted, ?_⟩
    · show answerOf (ConnectionEvent.onSession (Session.receive chunk) p) = _
      rw [ConnectionEvent.onSession, hreceive]
      rfl
    · show Serving settings commands (arrived ++ chunk) ((ConnectionEvent.receive chunk).apply p) _
      rw [ConnectionEvent.apply_receive, hreceive]
      exact hserving
    · show Asked ((ConnectionEvent.receive chunk).apply p.observed).1.board.calls completed
      rw [ConnectionEvent.apply_receive]
      exact hasked
  | tick =>
    obtain ⟨hanswer, hserving⟩ := h.tick
    refine ⟨[], hanswer, hserving.idle.1, hserving.idle.2, ?_⟩
    show Asked (ConnectionEvent.tick.apply p.observed).1.board.calls []
    rw [ConnectionEvent.apply_tick]
    rfl
  | complete => exact ⟨[], ⟨0, rfl⟩, h.complete.idle.1, h.complete.idle.2, rfl⟩

/-- **Run after run, the session keeps the service.** -/
theorem run (h : Serving settings commands arrived p service)
    (hcommands : ∀ received ∈ commands, received.Servable settings.board)
    (events : List ServiceEvent)
    (harrived : arrived ++ ServiceEvent.arrivals events <+: commands.flatMap Received.wire)
    (hroom : ConnectionEvent.neverFull (events.map ServiceEvent.onConnection) p = true) :
    ∃ completed,
      (∀ seen ∈ ConnectionEvent.observations (events.map ServiceEvent.onConnection) p,
        ∃ n, seen.answer = .ok n) ∧
      Serving settings commands (arrived ++ ServiceEvent.arrivals events)
        (ConnectionEvent.run (events.map ServiceEvent.onConnection) p)
        (service.run commands events) ∧
      completedBy (arrived ++ ServiceEvent.arrivals events).length commands
        = completedBy arrived.length commands ++ completed ∧
      Asked ((ConnectionEvent.observations (events.map ServiceEvent.onConnection) p).flatMap
        Observation.calls) completed := by
  induction events generalizing arrived p service with
  | nil =>
    exact ⟨[], List.forall_mem_nil _, h.idle.1, h.idle.2, rfl⟩
  | cons event events ih =>
    have harrivals : arrived ++ ServiceEvent.arrivals (event :: events)
        = (arrived ++ event.chunk) ++ ServiceEvent.arrivals events := by
      rw [List.append_assoc]
      rfl
    obtain ⟨hfirst, hrest⟩ := Bool.and_eq_true_iff.1 hroom
    rw [harrivals] at harrived ⊢
    -- what the first event completes, and then what the others complete
    obtain ⟨first, hanswer, hserving, hcompleted, hasked⟩ :=
      h.apply hcommands event ((List.prefix_append _ _).trans harrived) hfirst
    obtain ⟨rest, hanswers, hserving', hcompleted', hasked'⟩ := ih hserving harrived hrest
    refine ⟨first ++ rest, List.forall_mem_cons.2 ⟨hanswer, hanswers⟩, hserving', ?_, ?_⟩
    · rw [hcompleted', hcompleted, List.append_assoc]
    · exact hasked.append hasked'

/-- A session that is opened with room for the greeting keeps the service. -/
theorem start {settings : Settings} (hcapacity : 17 ≤ settings.queueCapacity.toNat) (board : B)
    (defers : Bool) (hcommands : ∀ received ∈ commands, received.Servable settings.board) :
    let fresh : Connection B Recorder :=
      (.new settings board, if defers then .deferring else .immediate)
    (∃ n, (ConnectionEvent.start.observation fresh).answer = .ok n) ∧
      Serving settings commands [] (ConnectionEvent.start.apply fresh) (.new settings board) ∧
      (ConnectionEvent.start.observation fresh).calls = [] := by
  intro fresh
  obtain ⟨image, hencode, -⟩ := Session.encode_greeting settings.versions
  have himage : (Session.greeting settings.versions).image = image := by
    rw [Report.image, hencode]
    rfl
  have hstart := Session.start_new_eq settings board hcapacity hencode
  have hcoherent := (Session.Coherent.new settings board).start
  rw [hstart] at hcoherent
  refine ⟨⟨0, ?_⟩, ?_, ?_⟩
  · show answerOf (ConnectionEvent.onSession Session.start fresh) = _
    rw [ConnectionEvent.onSession, hstart]
    rfl
  · rw [ConnectionEvent.apply_start, hstart]
    have hnone : completedBy 0 commands = [] :=
      completedBy_zero fun received hmem => (hcommands received hmem).genuine
    refine ⟨hcoherent, rfl, ?_, rfl, rfl, ?_⟩
    · exact congrArg (·.flatMap Received.wire ++ []) hnone
    · have hdelivered := (Delivered.start settings.queueCapacity.toNat defers).extend image
      rw [← himage] at hdelivered ⊢
      exact hdelivered
  · obtain ⟨added, hadded⟩ := Session.stateOf_start (Session.new settings board).watched
    show (ConnectionEvent.start.apply fresh.observed).1.board.calls = []
    rw [ConnectionEvent.apply_start]
    show (stateOf (Session.start (Session.new settings board).watched)).board.calls = []
    rw [hadded]
    rfl

end Serving

/-! ### From a new session on -/

theorem Command.endsSession_eq_false {command : Command} (h : command.kind ≠ .oneWay .session) :
    command.endsSession = false := by
  cases command with
  | hardReset magic => exact absurd rfl h
  | _ => rfl

end PinBridge
