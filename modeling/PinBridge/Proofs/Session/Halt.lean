/-
PinBridge/Proofs/Session/Halt.lean

When a session is halted, and what ends that.

A session is halted by its receiver, which stops at a failure if it aborts, and
by a hard reset.  The receiver is halted after a feed exactly if the feed has
failed (`Receiver.halted_feed_iff`), and one that resynchronises does not fail.
A hard reset is told in three ways that come to the same, whatever else is in
the chunk: the chunk ends the session, the board has been reset, and a message
was handed over that asks for it with the right magic number.  What a board
shows of a reset is left open (`Board.ShowsReset`); it may be the board's own
record or a record of all calls.

Once it is halted, a session refuses every chunk and stays as it is, and nothing
but opening it anew changes its receiver.

Main statements: `Board.ShowsReset.keeps`, and `halt_latch`.
-/
import PinBridge.Channel.Recorder
import PinBridge.Proofs.Receiver.Standing
import PinBridge.Proofs.Session.Connection
import PinBridge.Proofs.Session.Diary
import PinBridge.Proofs.Session.HardReset

namespace PinBridge

/-! ### Receivers -/

namespace Receiver

variable {d : Direction} {ε σ : Type} {ofStream : StreamError → ε} {handle : Handler d ε σ}
  {r : Receiver}

/-- A feed that fails halts the receiver, and one that does not fail leaves it running. -/
theorem halted_feed_iff (hrunning : r.halted = false) (chunk : Bytes) (s : σ) :
    (stateOf (feed ofStream handle chunk (r, s))).1.halted = true
      ↔ errorOf (feed ofStream handle chunk (r, s)) ≠ none := by
  cases hfeed : feed ofStream handle chunk (r, s) with
  | error e left => exact iff_of_true (halted_of_feed_error hfeed) (Option.some_ne_none e)
  | ok _ left =>
    rw [feed_of_running hrunning] at hfeed
    have hsame : left.1.halted = false := (halted_of_consume hfeed).trans hrunning
    refine iff_of_false (fun hhalted => ?_) (fun hne => hne rfl)
    rw [show left.1.halted = true from hhalted] at hsame
    cases hsame

/-- A receiver that resynchronises does not fail. -/
theorem Reachable.errorOf_feed_of_resync (h : Reachable d r) (hrunning : r.halted = false)
    (hrecovery : r.recovery = .resync) (chunk : Bytes) (s : σ) :
    errorOf (Receiver.feed ofStream handle chunk (r, s)) = none := by
  have hconsume := consume_of_resync ofStream handle (segmented d (r.held ++ chunk)) hrecovery s
  rw [← h.consume_eq_restart hrunning] at hconsume
  rw [feed_of_running hrunning]
  cases hresult : Receiver.consume ofStream handle chunk r s with
  | ok _ left => rfl
  | error e left =>
    rw [hresult] at hconsume
    cases hconsume

end Receiver

/-! ### The reset and the message that asks for it -/

variable {B : Type}

/-- The board is reset by the command that asks for it with the right magic number, and by no
other. -/
theorem Command.action_eq_hardReset_iff {command : Command} {limits : BoardLimits} {a : Action}
    (haction : command.action limits = .ok a) :
    a = .hardReset ↔ command = .hardReset Wire.magic := by
  constructor
  · rintro rfl
    exact (checked haction).2
  · rintro rfl
    cases haction
    rfl

/-- Something that is true of a board once it has been reset, and not before. -/
structure Board.ShowsReset [Board B] (P : B → Prop) : Prop where
  perform : ∀ (a : Action) (board : B), ¬P board → (P (Board.perform a board) ↔ a = .hardReset)
  inputLevel : ∀ (pin : UInt8) (board : B), P (Board.inputLevel pin board).2 ↔ P board
  uartBacklog : ∀ (uart : UInt8) (board : B), P (Board.uartBacklog uart board).2 ↔ P board

/-- A virtual board has it among its actions. -/
theorem VirtualBoard.showsReset :
    Board.ShowsReset fun board : VirtualBoard => Action.hardReset ∈ board.actions where
  perform a board hnone := by
    have hlast : Action.hardReset ∈ board.actions ++ [a] ↔ a = .hardReset := by
      simp [hnone, eq_comm]
    exact hlast
  inputLevel _ _ := Iff.rfl
  uartBacklog _ _ := Iff.rfl

/-- A board that is watched has it among its calls. -/
theorem Monitored.showsReset [Board B] :
    Board.ShowsReset fun m : Monitored B => Call.act .hardReset ∈ m.calls where
  perform a m hnone := by
    have hlast : Call.act .hardReset ∈ m.calls ++ [.act a] ↔ a = .hardReset := by
      simp [hnone, eq_comm]
    exact hlast
  inputLevel pin m := by
    have hlast : Call.act .hardReset ∈ m.calls ++ [.inputLevel pin]
        ↔ Call.act .hardReset ∈ m.calls := by simp
    exact hlast
  uartBacklog uart m := by
    have hlast : Call.act .hardReset ∈ m.calls ++ [.uartBacklog uart]
        ↔ Call.act .hardReset ∈ m.calls := by simp
    exact hlast

section Reset

variable [Board B] {P : B → Prop} {limits : BoardLimits}

theorem Board.ShowsReset.ask (hP : Board.ShowsReset P) {answer : Answer} {told : Option Report}
    {board board' : B} (hask : answer.ask board = (told, board')) : P board' ↔ P board :=
  Answer.of_ask (R := fun board' => P board' ↔ P board) Iff.rfl (hP.inputLevel · board)
    (hP.uartBacklog · board) hask

/-- A response resets the board exactly if the command asks for it, however it ends. -/
theorem Board.ShowsReset.respond (hP : Board.ShowsReset P) (command : Command) (wire : Bytes)
    {b : Bench B} (hnone : ¬P b.board) :
    P (stateOf (respond limits command wire b)).board ↔ command = .hardReset Wire.magic := by
  have hperformed : ∀ {a : Action}, command.action limits = .ok a →
      (P (Board.perform a b.board) ↔ command = .hardReset Wire.magic) := fun haction =>
    (hP.perform _ b.board hnone).trans (Command.action_eq_hardReset_iff haction)
  have hresponded := responded limits command wire b
  generalize PinBridge.respond limits command wire b = result at hresponded ⊢
  cases hresponded with
  | refused haction =>
    refine iff_of_false hnone ?_
    rintro rfl
    cases haction
  | unechoed haction hecho => exact hperformed haction
  | silent haction hecho hanswer => exact hperformed haction
  | reported haction hecho hask hsend => exact (hP.ask hask).trans (hperformed haction)
  | unreported haction hecho hask hsend => exact (hP.ask hask).trans (hperformed haction)

/-- A handled message ends the session exactly if it asks for the reset. -/
theorem Reception.ended_handle {r : Reception B} (hended : r.ended = false)
    (received : Received .incoming) :
    (stateOf (handle limits received r)).ended = true
      ↔ received.message = .hardReset Wire.magic := by
  obtain ⟨message, wire⟩ := received
  by_cases hmessage : message = .hardReset Wire.magic
  · subst hmessage
    rw [Session.handle_hardReset limits hended wire]
    exact iff_of_true rfl rfl
  · refine iff_of_false (fun hends => hmessage ?_) hmessage
    rw [handle_of_running hended] at hends
    cases haction : message.action limits with
    | error e =>
      simp only [respond_of_refused haction] at hends
      cases hends
    | ok a =>
      cases hrespond : PinBridge.respond limits message wire r.bench with
      | error e bench =>
        simp only [hrespond] at hends
        cases hends
      | ok _ bench =>
        simp only [hrespond] at hends
        cases message with
        | hardReset magic =>
          -- what is carried out has passed the check of its magic number
          refine (Command.action_eq_hardReset_iff haction).1 ?_
          simp only [Command.action] at haction
          split at haction
          · cases haction
            rfl
          · cases haction
        | _ => cases hends

/-- **Whatever is handled, the board has been reset exactly if the session has ended.** -/
theorem Board.ShowsReset.keeps (hP : Board.ShowsReset P) (limits : BoardLimits) :
    (Reception.handle limits).Keeps fun r : Reception B =>
      (r.ended = true ↔ P r.bench.board) := by
  intro received r hgenuine hr
  cases hended : r.ended with
  | true =>
    rw [Reception.handle_of_ended hended]
    exact hr
  | false =>
    have hnone : ¬P r.bench.board := fun hshown => by
      rw [hr.2 hshown] at hended
      cases hended
    rw [Reception.ended_handle hended, Reception.bench_handle, if_neg (by simp [hended])]
    exact (hP.respond received.message received.wire hnone).symm

/-- **Whatever is handled, a message asked for a reset exactly if the session has ended.** -/
theorem Reception.keeps_asked (limits : BoardLimits) :
    (handle (B := B) limits).recorded.Keeps fun (r, record) =>
      (r.ended = true ↔ ∃ received ∈ record, received.message = .hardReset Wire.magic) := by
  rintro received ⟨r, record⟩ hgenuine hr
  rw [Handler.stateOf_recorded]
  show (stateOf (handle limits received r)).ended = true ↔
    ∃ received' ∈ record ++ [received], received'.message = .hardReset Wire.magic
  simp only [List.mem_append, List.mem_singleton, or_and_right, exists_or, exists_eq_left, ← hr]
  cases hended : r.ended with
  | true =>
    rw [handle_of_ended hended]
    exact iff_of_true hended (.inl rfl)
  | false =>
    rw [ended_handle hended]
    exact ⟨.inr, fun h => h.resolve_left Bool.false_ne_true⟩

end Reset

/-! ### Sessions -/

namespace Session

variable [Board B] {settings : Settings} {s : Session B}

/-- The calls that a chunk makes to the board. -/
def calls (chunk : Bytes) (s : Session B) : List Call :=
  (stateOf (receive chunk s.watched)).board.calls

/-- A chunk ends a session exactly if a message in it asks for the reset. -/
theorem ends_iff_asked (h : s.Coherent settings) (chunk : Bytes) :
    s.ends chunk = true
      ↔ ∃ received ∈ s.messages chunk, received.message = .hardReset Wire.magic := by
  let handle : Handler .incoming SessionError (Reception B) := Reception.handle s.settings.board
  have hrecord : s.reception chunk = mapState (Prod.map id Prod.fst)
      (Receiver.feed .stream handle.recorded chunk (s.receiver, s.opening, [])) :=
    Receiver.feed_map handle.follows_recorded chunk s.receiver (s.opening, [])
  rw [ends, hrecord, stateOf_mapState]
  refine h.receiver.keeps_feed (Reception.keeps_asked s.settings.board) chunk ?_
  exact iff_of_false Bool.false_ne_true fun ⟨_, hmem, _⟩ => List.not_mem_nil hmem

/-- A chunk ends a session exactly if it has the board reset. -/
theorem ends_iff {P : B → Prop} (hP : Board.ShowsReset P) (h : s.Coherent settings)
    (hnone : ¬P s.board) (chunk : Bytes) :
    s.ends chunk = true ↔ P (stateOf (receive chunk s)).board := by
  rw [stateOf_receive, board_settle]
  exact h.receiver.keeps_feed (hP.keeps s.settings.board) chunk
    (iff_of_false Bool.false_ne_true hnone)

/-- A chunk ends a session exactly if a reset is among its calls. -/
theorem ends_iff_called (h : s.Coherent settings) (chunk : Bytes) :
    s.ends chunk = true ↔ Call.act .hardReset ∈ s.calls chunk := by
  have hwatched : s.watched.Coherent settings := ⟨h.settings_eq, h.recovery_eq, h.reachable⟩
  have hsame : s.reception chunk
      = mapState (Prod.map id (Reception.onBoard Monitored.board)) (s.watched.reception chunk) :=
    reception_onBoard Monitored.follows_board chunk s.watched
  rw [ends, hsame, stateOf_mapState]
  exact ends_iff Monitored.showsReset hwatched List.not_mem_nil chunk

/-- A chunk leaves a session halted exactly if it fails or ends the session. -/
theorem halted_receive_iff (hrunning : s.receiver.halted = false) (chunk : Bytes) :
    (stateOf (receive chunk s)).receiver.halted = true
      ↔ errorOf (receive chunk s) ≠ none ∨ s.ends chunk = true := by
  have hfeed : (stateOf (s.reception chunk)).1.halted = true ↔ errorOf (s.reception chunk) ≠ none :=
    Receiver.halted_feed_iff hrunning chunk s.opening
  rw [stateOf_receive, receiver_settle, receive_eq, errorOf_mapState]
  unfold ends
  cases (stateOf (s.reception chunk)).2.ended with
  | true => exact iff_of_true rfl (.inr rfl)
  | false => exact hfeed.trans ⟨.inl, fun h => h.resolve_right Bool.false_ne_true⟩

omit [Board B] in
/-- Opening a session fails exactly if its queue cannot hold the greeting. -/
theorem errorOf_start (h : s.Sized settings) :
    errorOf (start s) =
      if settings.queueCapacity.toNat < 17 then
        some (.link (.queue ⟨17, settings.queueCapacity.toNat⟩))
      else none := by
  obtain ⟨image, hencode, hlength⟩ := encode_greeting s.settings.versions
  have hfree : s.cleared.queue.free = settings.queueCapacity.toNat := by
    show s.queue.capacity - 0 = _
    rw [h.capacity, Nat.sub_zero]
  rw [start_eq, send_eq, Queue.send_eq, hencode]
  simp only [hfree, hlength]
  by_cases hsmall : settings.queueCapacity.toNat < 17
  · simp only [if_pos hsmall]
    rfl
  · simp only [if_neg hsmall]
    rfl

end Session

/-! ### Runs -/

/-- Whether an event opens the session. -/
def ConnectionEvent.opens {B C : Type} : ConnectionEvent B C → Bool
  | .start => true
  | _ => false

namespace ConnectionEvent

variable {C : Type} [Board B] [Channel C] {p : Connection B C}

/-- While a session is halted, nothing changes its receiver that does not open the session. -/
theorem receiver_apply_of_halted (hhalted : p.1.receiver.halted = true)
    {event : ConnectionEvent B C} (hopens : event.opens = false) :
    (event.apply p).1.receiver = p.1.receiver := by
  cases event with
  | start => cases hopens
  | receive chunk =>
    rw [apply_receive, Session.receive_eq_of_halted hhalted]
    rfl
  | tick => rw [apply_tick]; rfl
  | post posting =>
    obtain ⟨added, hadded⟩ := Session.stateOf_post posting p.1
    rw [apply_post, hadded]
  | boardChanges f => rfl
  | channelChanges f => rfl

/-- **A session that is halted stays halted until it is opened**, and its receiver as it is. -/
theorem receiver_run_of_halted (hhalted : p.1.receiver.halted = true)
    {events : List (ConnectionEvent B C)} (hopens : ∀ event ∈ events, event.opens = false) :
    (run events p).1.receiver = p.1.receiver := by
  induction events generalizing p with
  | nil => rfl
  | cons event events ih =>
    obtain ⟨hevent, hevents⟩ := List.forall_mem_cons.1 hopens
    have hsame := receiver_apply_of_halted hhalted hevent
    exact (ih (hsame ▸ hhalted) hevents).trans hsame

end ConnectionEvent

namespace Session

variable [Board B] {settings : Settings} {s : Session B}

/-- **When a session is halted, and what ends that.**

A halted session refuses every chunk, the empty one, too, with that error, and stays as it is in all
its parts, and nothing is called on its board; whatever happens to it, on whatever channel, its
receiver stays the same until it is opened.

Opening it makes it run again, also when the greeting does not fit its queue and opening fails.

A session that runs and resynchronises takes every chunk without failing, and is halted afterwards
exactly if the chunk has had the board reset.  One that aborts is halted afterwards exactly if the
chunk has failed or has had the board reset.

A chunk has the board reset exactly if a message in it asks for that with the right magic number. -/
theorem halt_latch (h : s.Attainable settings) :
    (s.receiver.halted = true →
      (∀ chunk, receive chunk s = .error (.stream .halted) s ∧ s.calls chunk = []) ∧
      ∀ {C : Type} [Channel C] (channel : C) (events : List (ConnectionEvent B C)),
        (∀ event ∈ events, event.opens = false) →
        (ConnectionEvent.run events (s, channel)).1.receiver = s.receiver) ∧
    ((stateOf (start s)).receiver.halted = false ∧
      errorOf (start s) =
        if settings.queueCapacity.toNat < 17 then
          some (.link (.queue ⟨17, settings.queueCapacity.toNat⟩))
        else none) ∧
    (s.receiver.halted = false → ∀ chunk,
      let result := receive chunk s
      (settings.recovery = .resync →
        errorOf result = none ∧
          ((stateOf result).receiver.halted = true ↔ Call.act .hardReset ∈ s.calls chunk)) ∧
      (settings.recovery = .abort →
        ((stateOf result).receiver.halted = true ↔
          errorOf result ≠ none ∨ Call.act .hardReset ∈ s.calls chunk))) ∧
    ∀ chunk, Call.act .hardReset ∈ s.calls chunk ↔
      ∃ received ∈ s.messages chunk, received.message = .hardReset Wire.magic := by
  have hcoherent : s.Coherent settings := h.sized.coherent
  refine ⟨fun hhalted => ⟨fun chunk => ⟨receive_eq_of_halted hhalted chunk, ?_⟩, ?_⟩,
    ⟨?_, errorOf_start h.sized⟩, fun hrunning chunk => ?_, fun chunk => ?_⟩
  · rw [calls, receive_of_halted (s := s.watched) hhalted]
    rfl
  · intro C _ channel events hopens
    exact ConnectionEvent.receiver_run_of_halted (p := (s, channel)) hhalted hopens
  · obtain ⟨added, hadded⟩ := stateOf_start s
    rw [hadded]
    rfl
  · have hiff := halted_receive_iff hrunning chunk
    rw [ends_iff_called hcoherent] at hiff
    intro result
    refine ⟨fun hresync => ?_, fun _ => hiff⟩
    have hnone : errorOf result = none := by
      rw [show result = receive chunk s from rfl, receive_eq, errorOf_mapState]
      exact hcoherent.reachable.errorOf_feed_of_resync hrunning
        (hcoherent.recovery_eq.trans hresync) chunk s.opening
    exact ⟨hnone, hiff.trans ⟨fun h => h.resolve_left (· hnone), .inr⟩⟩
  · rw [← ends_iff_called hcoherent, ends_iff_asked hcoherent]

/-- The theorem for a session that a byte has halted that is no tag, and whose queue cannot hold the
greeting. -/
theorem halt_latch_no_room :
    let settings : Settings := { Settings.standard with queueCapacity := 16, recovery := .abort }
    let s := (ConnectionEvent.run [.receive [0xFF]]
      (.new settings (VirtualBoard.new .standard), Recorder.immediate)).1
    s.Attainable settings ∧ s.receiver.halted = true ∧
      receive [] s = .error (.stream .halted) s ∧
      (stateOf (start s)).receiver.halted = false ∧
      errorOf (start s) = some (.link (.queue ⟨17, 16⟩)) := by
  intro settings s
  have hs : s.Attainable settings :=
    ⟨Recorder, inferInstance, .new .standard, .immediate, [.receive [0xFF]], rfl⟩
  have hhalted : s.receiver.halted = true := by decide +kernel
  obtain ⟨hrefuses, ⟨hruns, herror⟩, -⟩ := halt_latch hs
  exact ⟨hs, hhalted, ((hrefuses hhalted).1 []).1, hruns, herror⟩

end Session
end PinBridge
