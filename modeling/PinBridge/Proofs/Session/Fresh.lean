/-
PinBridge/Proofs/Session/Fresh.lean

Opening a session makes it forget everything that has happened to it.

Of all that a session keeps, some things decide what it does: its settings and
its board, where its receiver stands, its queue, and how many bytes are on their
way (`Session.Standing`).  Two sessions that agree in these do the same,
whatever happens, and agree in them afterwards (`standing_perform`).  What is
left out are the counters, and what earlier messages have left in the buffer of
the receiver.

A session that is opened agrees in these things with a new one that is opened on
the same board, also when the greeting does not fit the queue.

Main statement: `start_forgets`.
-/
import PinBridge.Board.Virtual
import PinBridge.Channel.Recorder
import PinBridge.Proofs.Receiver.Standing
import PinBridge.Proofs.Session.Connection

namespace PinBridge

/-! ### What decides -/

/-- What decides what a session does. -/
structure Session.Standing (B : Type) where
  settings : Settings
  board : B
  receiver : Receiver.Standing
  queue : Queue
  inFlight : Nat

/-- What decides what a line does. -/
structure Line.Standing (C : Type) where
  inFlight : Nat
  queue : Queue
  channel : C

variable {B C : Type}

def Session.standing (s : Session B) : Session.Standing B :=
  ⟨s.settings, s.board, s.receiver.standing, s.queue, s.transmitter.inFlight⟩

def Line.standing (l : Line C) : Line.Standing C := ⟨l.transmitter.inFlight, l.queue, l.channel⟩

/-- What decides what a connection does. -/
def Connection.standing (p : Connection B C) : Session.Standing B × C := (p.1.standing, p.2)

/-- Without the state, whether a step fails or not. -/
def answerOf {ε σ α : Type} : EStateM.Result ε σ α → Except ε α
  | .ok a _ => .ok a
  | .error e _ => .error e

theorem answerOf_mapState {ε σ τ α : Type} (f : σ → τ) (result : EStateM.Result ε σ α) :
    answerOf (mapState f result) = answerOf result := by
  cases result <;> rfl

/-- A result with the error told as one of the session. -/
def SessionError.lift {σ α : Type} : EStateM.Result LinkError σ α → EStateM.Result SessionError σ α
  | .ok a s => .ok a s
  | .error e s => .error (.link e) s

theorem Session.mapState_tick {τ : Type} [Board B] [Channel C] (f : Session B × C → τ)
    (s : Session B) (channel : C) :
    mapState f (tick (s, channel))
      = SessionError.lift
          (mapState (fun l => f (s.afterTick l, l.channel)) (Line.tick (s.line channel))) := by
  rw [tick_eq]
  cases Line.tick (s.line channel) <;> rfl

/-! ### Lines -/

namespace Line

variable {l l' : Line C}

/-- Confirming does not depend on the counters. -/
theorem standing_confirm (h : l.standing = l'.standing) :
    l.confirm.standing = l'.confirm.standing := by
  obtain ⟨⟨inFlight, writes, confirmed⟩, queue, channel⟩ := l
  obtain ⟨⟨inFlight', writes', confirmed'⟩, queue', channel'⟩ := l'
  cases h
  unfold confirm
  show standing (if 0 < inFlight then _ else _) = standing (if 0 < inFlight then _ else _)
  split <;> rfl

variable [Channel C]

/-- Writing does not depend on the counters. -/
theorem standing_launch (h : l.standing = l'.standing) :
    mapState standing (launch l) = mapState standing (launch l') := by
  obtain ⟨⟨inFlight, writes, confirmed⟩, queue, channel⟩ := l
  obtain ⟨⟨inFlight', writes', confirmed'⟩, queue', channel'⟩ := l'
  cases h
  simp only [launch]
  split
  · rfl
  · cases Channel.write queue.head channel <;> rfl

/-- A tick does not depend on the counters. -/
theorem standing_tick (h : l.standing = l'.standing) :
    mapState standing (tick l) = mapState standing (tick l') := by
  have hready : Channel.ready l.channel = Channel.ready l'.channel :=
    congrArg (Channel.ready ·.channel) h
  unfold tick
  rw [hready]
  split
  · exact standing_launch (standing_confirm h)
  · exact congrArg (EStateM.Result.ok 0) h

end Line

/-! ### Sessions -/

namespace Session

variable {s s' : Session B}

/-- Putting something on the queue depends on the queue. -/
theorem standing_enqueue (h : s.standing = s'.standing) (posting : Posting) :
    mapState standing (ConnectionEvent.enqueue posting s)
      = mapState standing (ConnectionEvent.enqueue posting s') := by
  have hqueue : s.queue = s'.queue := congrArg Standing.queue h
  have hset : ∀ queue, standing { s with queue } = standing { s' with queue } := fun queue =>
    congrArg (fun t : Standing B => { t with queue }) h
  rw [ConnectionEvent.enqueue_eq, ConnectionEvent.enqueue_eq, hqueue]
  cases posting.put s'.queue with
  | ok queue => exact congrArg (EStateM.Result.ok ()) (hset queue)
  | error e => exact congrArg (EStateM.Result.error (SessionError.link e)) h

/-- Opening a session is putting the greeting on an empty queue. -/
theorem start_eq_enqueue (s : Session B) :
    start s = ConnectionEvent.enqueue (.message (greeting s.settings.versions)) s.cleared := rfl

/-- What is left when everything is forgotten. -/
theorem standing_cleared (s : Session B) :
    s.cleared.standing
      = ⟨s.settings, s.board, ⟨s.receiver.recovery, false, []⟩, s.queue.clear, 0⟩ := rfl

theorem standing_start (h : s.cleared.standing = s'.cleared.standing) :
    mapState standing (start s) = mapState standing (start s') := by
  have hsettings : s.settings = s'.settings := congrArg Standing.settings h
  rw [start_eq_enqueue, start_eq_enqueue, hsettings]
  exact standing_enqueue h _

theorem standing_settle {receiver receiver' : Receiver} (h : s.standing = s'.standing)
    (hreceiver : receiver.standing = receiver'.standing) (r : Reception B) :
    (s.settle receiver r).standing = (s'.settle receiver' r).standing := by
  have hsettings : s.settings = s'.settings := congrArg Standing.settings h
  have hinFlight : s.transmitter.inFlight = s'.transmitter.inFlight := congrArg Standing.inFlight h
  have hrecovery : receiver.recovery = receiver'.recovery :=
    congrArg Receiver.Standing.recovery hreceiver
  unfold standing
  simp only [settings_settle, board_settle, receiver_settle, queue_settle, transmitter_settle]
  rw [hsettings]
  cases r.ended with
  | true =>
    simp only [if_true, Receiver.standing_halt, hrecovery]
    rfl
  | false =>
    simp only [Bool.false_eq_true, if_false, hreceiver, hinFlight]

variable [Board B]

theorem standing_receive (hreachable : s.receiver.Reachable .incoming)
    (hreachable' : s'.receiver.Reachable .incoming) (h : s.standing = s'.standing)
    (chunk : Bytes) :
    mapState standing (receive chunk s) = mapState standing (receive chunk s') := by
  have hsettings : s.settings = s'.settings := congrArg Standing.settings h
  have hopening : s.opening = s'.opening :=
    congrArg (fun t : Standing B => (⟨⟨t.board, t.queue⟩, false⟩ : Reception B)) h
  have hreceiver : s.receiver.standing = s'.receiver.standing := congrArg Standing.receiver h
  have hreception : Receiver.placed (s.reception chunk) = Receiver.placed (s'.reception chunk) := by
    rw [reception, reception, hsettings, hopening]
    exact Receiver.standing_feed hreachable hreachable' hreceiver chunk s'.opening
  rw [receive_eq, receive_eq, mapState_mapState, mapState_mapState]
  refine mapState_congr hreception ?_
  rintro ⟨receiver, r⟩ ⟨receiver', r'⟩ hplaced
  obtain ⟨hsame, hr⟩ := Prod.mk.inj hplaced
  have hr : r = r' := hr
  rw [hr]
  exact standing_settle h hsame r'

theorem standing_afterTick {l l' : Line C} (h : s.standing = s'.standing)
    (hl : l.standing = l'.standing) :
    Connection.standing (s.afterTick l, l.channel)
      = Connection.standing (s'.afterTick l', l'.channel) := by
  have hsession : (s.afterTick l).standing = (s'.afterTick l').standing := by
    have hsettings : s.settings = s'.settings := congrArg Standing.settings h
    have hboard : s.board = s'.board := congrArg Standing.board h
    have hreceiver : s.receiver.standing = s'.receiver.standing := congrArg Standing.receiver h
    have hqueue : l.queue = l'.queue := congrArg Line.Standing.queue hl
    have hinFlight : l.transmitter.inFlight = l'.transmitter.inFlight :=
      congrArg Line.Standing.inFlight hl
    simp only [standing, afterTick, hsettings, hboard, hreceiver, hqueue, hinFlight]
  have hchannel : l.channel = l'.channel := congrArg Line.Standing.channel hl
  exact Prod.ext hsession hchannel

theorem standing_tick [Channel C] (h : s.standing = s'.standing) (channel : C) :
    mapState Connection.standing (tick (s, channel))
      = mapState Connection.standing (tick (s', channel)) := by
  have hline : (s.line channel).standing = (s'.line channel).standing :=
    congrArg (fun t : Standing B => (⟨t.inFlight, t.queue, channel⟩ : Line.Standing C)) h
  have hticked : mapState (fun l => Connection.standing (s.afterTick l, l.channel))
        (Line.tick (s.line channel))
      = mapState (fun l => Connection.standing (s'.afterTick l, l.channel))
        (Line.tick (s'.line channel)) :=
    mapState_congr (Line.standing_tick hline) fun _ _ => standing_afterTick h
  rw [mapState_tick, mapState_tick, hticked]

end Session

/-! ### Connections -/

namespace ConnectionEvent

open Connection

variable {settings : Settings} {p p' : Connection B C}

/-- What happens to the sessions alone leaves the channels as they are. -/
theorem standing_onSession {act act' : EStateM SessionError (Session B) Unit}
    (hchannel : p.2 = p'.2)
    (h : mapState Session.standing (act p.1) = mapState Session.standing (act' p'.1)) :
    mapState standing (onSession act p) = mapState standing (onSession act' p') := by
  have honSession : ∀ (act : EStateM SessionError (Session B) Unit) (p : Connection B C),
      mapState standing (onSession act p)
        = match mapState Session.standing (act p.1) with
          | .ok () t => .ok 0 (t, p.2)
          | .error e t => .error e (t, p.2) := by
    intro act p
    unfold onSession
    cases act p.1 <;> rfl
  rw [honSession, honSession, h, hchannel]

variable [Board B] [Channel C]

/-- What is forgotten does not matter to a session that is opened. -/
theorem standing_perform_start (h : p.1.cleared.standing = p'.1.cleared.standing)
    (hchannel : p.2 = p'.2) :
    mapState standing (start.perform p) = mapState standing (start.perform p') :=
  standing_onSession hchannel (Session.standing_start h)

/-- **What decides what a connection does decides it for every event**, and what is decided includes
what will decide from then on. -/
theorem standing_perform (hs : p.1.Sized settings) (hs' : p'.1.Sized settings)
    (h : standing p = standing p') (event : ConnectionEvent B C) :
    mapState standing (event.perform p) = mapState standing (event.perform p') := by
  obtain ⟨hsession, hchannel⟩ := Prod.mk.inj h
  cases event with
  | start =>
    have hcleared : p.1.cleared.standing = p'.1.cleared.standing :=
      congrArg (fun t : Session.Standing B =>
        ({ t with receiver := ⟨t.receiver.recovery, false, []⟩, queue := t.queue.clear,
                  inFlight := 0 } : Session.Standing B)) hsession
    exact standing_perform_start hcleared hchannel
  | receive chunk =>
    exact standing_onSession hchannel
      (Session.standing_receive hs.coherent.reachable hs'.coherent.reachable hsession chunk)
  | tick =>
    show mapState standing (Session.tick (p.1, p.2)) = mapState standing (Session.tick (p'.1, p'.2))
    rw [hchannel]
    exact Session.standing_tick hsession p'.2
  | post posting => exact standing_onSession hchannel (Session.standing_enqueue hsession posting)
  | boardChanges f =>
    have hchanged : standing ({ p.1 with board := f p.1.board }, p.2)
        = standing ({ p'.1 with board := f p'.1.board }, p'.2) :=
      congrArg (fun t : Session.Standing B × C => ({ t.1 with board := f t.1.board }, t.2)) h
    exact congrArg (EStateM.Result.ok 0) hchanged
  | channelChanges f =>
    have hchanged : standing (p.1, f p.2) = standing (p'.1, f p'.2) :=
      congrArg (Prod.map id f) h
    exact congrArg (EStateM.Result.ok 0) hchanged

theorem standing_apply {event : ConnectionEvent B C}
    (h : mapState standing (event.perform p) = mapState standing (event.perform p')) :
    standing (event.apply p) = standing (event.apply p') := by
  have hstate := congrArg stateOf h
  rw [stateOf_mapState, stateOf_mapState] at hstate
  exact hstate

end ConnectionEvent

/-! ### What is seen of a connection -/

/-- What is seen of an event: what it answers, the calls on the board, the spans offered to the
channel, and what is queued then. -/
@[ext] structure Observation where
  answer : Except SessionError Nat
  calls : List Call
  offers : List Offer
  queued : Bytes

namespace ConnectionEvent

open Connection

variable [Board B] [Channel C] {settings : Settings} {p p' : Connection B C}

def observation (event : ConnectionEvent B C) (p : Connection B C) : Observation where
  answer := answerOf (event.perform p)
  calls := (event.observed.apply p.observed).1.board.calls
  offers := (event.observed.apply p.observed).2.offers
  queued := (event.apply p).1.queue.content

/-- What is seen of one event after the other. -/
def observations : List (ConnectionEvent B C) → Connection B C → List Observation
  | [], _ => []
  | event :: events, p => event.observation p :: observations events (event.apply p)

theorem observation_eq {event : ConnectionEvent B C}
    (h : mapState standing (event.perform p) = mapState standing (event.perform p'))
    (hobserved : mapState standing (event.observed.perform p.observed)
      = mapState standing (event.observed.perform p'.observed)) :
    event.observation p = event.observation p' := by
  have hanswer := congrArg answerOf h
  rw [answerOf_mapState, answerOf_mapState] at hanswer
  obtain ⟨hsession, -⟩ := Prod.mk.inj (standing_apply h)
  obtain ⟨hmonitored, htapped⟩ := Prod.mk.inj (standing_apply hobserved)
  refine Observation.ext hanswer ?_ ?_ ?_
  · exact congrArg (fun t : Session.Standing (Monitored B) => t.board.calls) hmonitored
  · exact congrArg Tapped.offers htapped
  · exact congrArg (fun t : Session.Standing B => t.queue.content) hsession

omit [Board B] [Channel C] in
/-- What decides what a connection does decides what it does when it is watched. -/
theorem standing_observed (h : standing p = standing p') :
    standing p.observed = standing p'.observed :=
  congrArg (fun t : Session.Standing B × C =>
    ((⟨t.1.settings, ⟨t.1.board, []⟩, t.1.receiver, t.1.queue, t.1.inFlight⟩, ⟨t.2, []⟩) :
      Session.Standing (Monitored B) × Tapped C)) h

/-- **The same is seen of connections that agree in what decides**, and they agree still. -/
theorem observations_eq (hs : p.1.Sized settings) (hs' : p'.1.Sized settings)
    (h : standing p = standing p') (events : List (ConnectionEvent B C)) :
    observations events p = observations events p' ∧
      standing (run events p) = standing (run events p') := by
  induction events generalizing p p' with
  | nil => exact ⟨rfl, h⟩
  | cons event events ih =>
    have hperform := standing_perform hs hs' h event
    have hobserved : mapState standing (event.observed.perform p.observed)
        = mapState standing (event.observed.perform p'.observed) :=
      standing_perform hs.watched hs'.watched (standing_observed h) event.observed
    obtain ⟨hobservations, hrun⟩ := ih (hs.apply event) (hs'.apply event) (standing_apply hperform)
    refine ⟨?_, hrun⟩
    rw [observations, observations, observation_eq hperform hobserved, hobservations]

end ConnectionEvent

/-! ### Opening -/

namespace Session

variable [Board B] [Channel C] {settings : Settings} {s : Session B}

omit [Board B] in
/-- What a session is when it has forgotten everything, a new one is, too. -/
theorem standing_cleared_new (h : s.Sized settings) :
    s.cleared.standing = (Session.new settings s.board).cleared.standing := by
  have hqueue : s.queue.clear = (Queue.empty settings.queueCapacity.toNat).clear :=
    congrArg Queue.empty h.capacity
  rw [standing_cleared, standing_cleared, h.coherent.settings_eq, h.coherent.recovery_eq, hqueue]
  rfl

/-- **Opening a session makes it forget everything that has happened to it.**

Whatever it has been through, once it is opened the same is seen of it as of a new session that is
opened on the same board, whatever happens from then on: the same answers, the same calls on the
board, the same spans offered to the channel and the same queue.  That includes the opening itself,
which fails in both cases or in none.  In the end the two still agree in all that decides. -/
theorem start_forgets (h : s.Attainable settings) (channel : C)
    (events : List (ConnectionEvent B C)) :
    let old : Connection B C := (s, channel)
    let fresh : Connection B C := (Session.new settings s.board, channel)
    ConnectionEvent.observations (.start :: events) old
      = ConnectionEvent.observations (.start :: events) fresh ∧
    Connection.standing (ConnectionEvent.run (.start :: events) old)
      = Connection.standing (ConnectionEvent.run (.start :: events) fresh) := by
  intro old fresh
  have hold : old.1.Sized settings := h.sized
  have hfresh : fresh.1.Sized settings := .new settings s.board
  have hcleared : old.1.cleared.standing = fresh.1.cleared.standing := standing_cleared_new h.sized
  have hwatched : old.1.watched.cleared.standing = fresh.1.watched.cleared.standing :=
    standing_cleared_new (s := s.watched) h.sized.watched
  have hperform := ConnectionEvent.standing_perform_start hcleared rfl
  have hobserved : mapState Connection.standing (ConnectionEvent.start.perform old.observed)
      = mapState Connection.standing (ConnectionEvent.start.perform fresh.observed) :=
    ConnectionEvent.standing_perform_start hwatched rfl
  obtain ⟨hobservations, hrun⟩ := ConnectionEvent.observations_eq (hold.apply .start)
    (hfresh.apply .start) (ConnectionEvent.standing_apply hperform) events
  refine ⟨?_, hrun⟩
  rw [ConnectionEvent.observations, ConnectionEvent.observations, hobservations,
    ConnectionEvent.observation_eq hperform hobserved]

/-- The theorem for a session that has received a part of a message and has its greeting on its way
when it is opened again. -/
theorem start_forgets_midway :
    let past : List (ConnectionEvent VirtualBoard Recorder) := [.start, .tick, .receive [13, 1]]
    let s := (ConnectionEvent.run past (.new .standard (.new .standard), Recorder.deferring)).1
    let old : Connection VirtualBoard Recorder := (s, .immediate)
    let fresh : Connection VirtualBoard Recorder := (.new .standard s.board, .immediate)
    let events : List (ConnectionEvent VirtualBoard Recorder) := [.start, .receive [2, 3], .tick]
    s.Attainable .standard ∧ s.receiver.held = [13, 1] ∧ s.transmitter.inFlight = 17 ∧
      ConnectionEvent.observations events old = ConnectionEvent.observations events fresh := by
  intro past s old fresh events
  have hs : s.Attainable .standard :=
    ⟨Recorder, inferInstance, .new .standard, .deferring, past, rfl⟩
  have hheld : s.receiver.held = [13, 1] := by decide +kernel
  have honWay : s.transmitter.inFlight = 17 := by decide +kernel
  exact ⟨hs, hheld, honWay, (start_forgets hs Recorder.immediate [.receive [2, 3], .tick]).1⟩

end Session
end PinBridge
