/-
PinBridge/Proofs/Session/Sharing.lean

A session whose queue others have in their hands, too.

The queue of a session is shared with everyone who may send, and a share of it
is enough to do anything that may be done to a queue: to put bytes in, but also
to take them out, or to empty it.  `Session.Shared` are all sessions that can be
reached under such company.  Whatever is done, a message only goes in if it
fits; so the content never outgrows the slots.

Main statement: `Shared.sound`.
-/
import PinBridge.Proofs.Queue.Spans
import PinBridge.Proofs.Session.Events
import PinBridge.Proofs.Session.Response

namespace PinBridge

/-! ### What sessions do to the queue -/

namespace Queue.Sound

variable {q q' : Queue}

theorem sendBytes (h : q.Sound) {wire : Bytes} (hsend : q.sendBytes wire = .ok q') : q'.Sound := by
  rw [sendBytes_eq] at hsend
  split at hsend
  · cases hsend
  next hfits =>
    cases hsend
    exact h.extend (Nat.le_of_not_lt hfits)

theorem send (h : q.Sound) {r : Report} (hsend : q.send r = .ok q') : q'.Sound := by
  rw [send_eq] at hsend
  split at hsend
  · cases hsend
  · split at hsend
    · cases hsend
    next hfits =>
      cases hsend
      exact h.extend (Nat.le_of_not_lt hfits)

theorem echo (h : q.Sound) {command : Command} {wire : Bytes}
    (hecho : command.echo wire q = .ok q') : q'.Sound := by
  unfold Command.echo at hecho
  split at hecho
  · exact h.sendBytes hecho
  · cases hecho
    exact h

end Queue.Sound

variable {B : Type}

/-- However a response ends, the queue stays sound. -/
theorem sound_respond [Board B] (limits : BoardLimits) (command : Command) (wire : Bytes)
    {b : Bench B} (h : b.queue.Sound) : (stateOf (respond limits command wire b)).queue.Sound := by
  have hresponded := responded limits command wire b
  generalize respond limits command wire b = result at hresponded ⊢
  cases hresponded with
  | refused haction => exact h
  | unechoed haction hecho => exact h
  | silent haction hecho hanswer => exact h.echo hecho
  | reported haction hecho hask hsend => exact (h.echo hecho).send hsend
  | unreported haction hecho hask hsend => exact h.echo hecho

namespace Session

variable {settings : Settings} {s : Session B}

theorem sound_enqueue {f : Queue → Except LinkError Queue} {r : Report}
    (hf : ∀ q, f q = Queue.send r q) (h : s.queue.Sound) :
    (stateOf (enqueue f s)).queue.Sound := by
  rcases stateOf_enqueue f s with hsame | ⟨queue, hqueue, hstate⟩
  · rw [hsame]
    exact h
  · rw [hstate]
    exact h.send ((hf s.queue).symm.trans hqueue)

/-- The queue once what is on its way has arrived. -/
def arrived (s : Session B) : Queue :=
  if 0 < s.transmitter.inFlight then s.queue.pull s.transmitter.inFlight else s.queue

theorem queue_confirm {C : Type} (s : Session B) (channel : C) :
    (s.line channel).confirm.queue = s.arrived := by
  unfold Line.confirm arrived
  show (if 0 < s.transmitter.inFlight then _ else _ : Line C).queue = _
  split <;> rfl

theorem sound_arrived (h : s.queue.Sound) : s.arrived.Sound := by
  unfold arrived
  split
  · exact h.pull _
  · exact h

variable [Board B]

theorem sound_receive (hcoherent : s.Coherent settings) (h : s.queue.Sound) (chunk : Bytes) :
    (stateOf (receive chunk s)).queue.Sound := by
  have hkeeps : (Reception.handle s.settings.board).Keeps
      fun r : Reception B => r.bench.queue.Sound := by
    intro received r _ hr
    rw [Reception.bench_handle]
    split
    · exact hr
    · exact sound_respond s.settings.board received.message received.wire hr
  have hsound : (stateOf (s.reception chunk)).2.bench.queue.Sound :=
    hcoherent.receiver.keeps_feed hkeeps chunk h
  rw [stateOf_receive, queue_settle]
  split
  · exact .clear _
  · exact hsound

theorem sound_tick {C : Type} [Channel C] (h : s.queue.Sound) (channel : C) :
    (stateOf (tick (s, channel))).1.queue.Sound := by
  have hconfirm : (s.line channel).confirm.queue.Sound := by
    rw [queue_confirm]
    exact sound_arrived h
  rw [stateOf_tick]
  show (Line.left (Line.tick (s.line channel))).queue.Sound
  have hticked := Line.ticked (s.line channel)
  generalize Line.tick (s.line channel) = result at hticked ⊢
  cases hticked with
  | waiting hready => exact h
  | idle hready hspan => exact hconfirm
  | written hready hspan hwrite => exact hconfirm
  | failed hready hspan hwrite => exact hconfirm

/-- **Whatever happens to a session, its queue stays sound.** -/
theorem sound_apply (hcoherent : s.Coherent settings) (h : s.queue.Sound)
    (event : SessionEvent B) : (event.apply s).queue.Sound := by
  cases event with
  | start =>
    show (stateOf (start s)).queue.Sound
    rw [start_eq, stateOf_send]
    exact sound_enqueue (fun _ => rfl) (.clear s.queue)
  | receive chunk => exact sound_receive hcoherent h chunk
  | tick channel => exact sound_tick h channel
  | send r =>
    show (stateOf (send r s)).queue.Sound
    rw [stateOf_send]
    exact sound_enqueue (fun _ => rfl) h
  | sendLevel pin level => exact sound_enqueue (fun _ => rfl) h
  | sendBacklog uart remaining => exact sound_enqueue (fun _ => rfl) h
  | boardChanges f => exact h

/-! ### Company -/

/-- A session that can be reached from a new one with these settings while others do to its queue
whatever may be done to one. -/
inductive Shared (settings : Settings) : Session B → Prop
  | new (board : B) : Shared settings (.new settings board)
  /-- Something happens to the session. -/
  | event {s : Session B} (h : Shared settings s) (event : SessionEvent B) :
      Shared settings (event.apply s)
  /-- Somebody else uses the queue. -/
  | others {s : Session B} (h : Shared settings s) (op : QueueOp) :
      Shared settings { s with queue := (op.perform s.queue).2 }

/-- A session that is left alone is one of these. -/
theorem Reachable.shared (h : s.Reachable settings) : s.Shared settings := by
  obtain ⟨board, events, rfl⟩ := h
  exact SessionEvent.run_induction (fun event _ h => h.event event) events (.new board)

theorem Shared.coherent (h : s.Shared settings) : s.Coherent settings := by
  induction h with
  | new board => exact .new settings board
  | event h event ih => exact ih.apply event
  | others h op ih => exact ⟨ih.settings_eq, ih.recovery_eq, ih.reachable⟩

/-- **Whatever company a session keeps, its queue is sound.** -/
theorem Shared.sound (h : s.Shared settings) : s.queue.Sound := by
  induction h with
  | new board => exact .empty _
  | event h event ih => exact sound_apply h.coherent ih event
  | others h op ih => exact ih.perform op

end Session
end PinBridge
