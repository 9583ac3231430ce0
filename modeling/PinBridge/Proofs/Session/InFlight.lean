/-
PinBridge/Proofs/Session/InFlight.lean

No byte leaves the queue before it was handed over.

The queue can be emptied by opening the session and by a hard reset, and the
count of bytes on their way lies in another place.  What keeps the two together
is `Line.Handed`: the bytes on their way are at the front of the queue, and they
are the span that the channel accepted last.  Everything that may happen to a
connection preserves it: bytes are put behind the front, the queue is emptied
only together with the count, and a tick counts a span exactly when the channel
has accepted it.

Main statement: `taken_out_handed_over`.
-/
import PinBridge.Board.Virtual
import PinBridge.Channel.Recorder
import PinBridge.Proofs.Session.Connection

namespace PinBridge

/-! ### Lines -/

namespace Line

variable {C : Type} {l : Line (Tapped C)}

/-- What is on its way is at the front of the queue, and it is the span that was accepted last. -/
structure Handed (l : Line (Tapped C)) : Prop where
  fits : l.transmitter.inFlight ≤ l.queue.length
  last : 0 < l.transmitter.inFlight →
    l.channel.accepted.getLast? = some (l.queue.content.take l.transmitter.inFlight)

namespace Handed

/-- With nothing on its way there is nothing to say. -/
theorem of_idle (hidle : l.transmitter.inFlight = 0) : Handed l :=
  ⟨by omega, by omega⟩

theorem extend (h : Handed l) (added : Bytes) :
    Handed { l with queue := l.queue.extend added } := by
  have hlength : l.queue.length ≤ (l.queue.extend added).length := by
    simp [Queue.length]
  refine ⟨Nat.le_trans h.fits hlength, fun hpositive => ?_⟩
  rw [h.last hpositive, Queue.content_extend, List.take_append_of_le_length h.fits]

variable [Channel C]

/-- **After a tick the bytes on their way are those that the channel accepted last.** -/
theorem tick (h : Handed l) : Handed (left (tick l)) := by
  have hticked := Line.ticked l
  generalize Line.tick l = result at hticked ⊢
  cases hticked with
  | waiting hready => exact h
  | idle hready hspan => exact of_idle confirm_inFlight
  | @written channel hready hspan hwrite =>
    have hfront : l.confirm.queue.head <+: l.confirm.queue.content := Queue.head_prefix _
    refine ⟨hfront.length_le, fun _ => ?_⟩
    -- only an accepted offer lets the write succeed
    have haccepted : channel.accepted = l.channel.accepted ++ [l.confirm.queue.head] := by
      rw [Tapped.write_tapped] at hwrite
      split at hwrite
      · cases hwrite
        exact Tapped.accepted_note_none _ _ _
      · cases hwrite
    show channel.accepted.getLast? = some (l.confirm.queue.content.take l.confirm.queue.head.length)
    rw [haccepted, List.getLast?_concat, ← List.prefix_iff_eq_take.1 hfront]
  | failed hready hspan hwrite => exact of_idle confirm_inFlight

end Handed
end Line

/-! ### Connections -/

namespace ConnectionEvent

open Connection

variable {B C : Type} [Board B] [Channel C] {settings : Settings}

/-- **Whatever happens, the bytes on their way stay those that were accepted last.** -/
theorem handed_apply {p : Connection (Monitored B) (Tapped C)} (hs : p.1.Sized settings)
    (h : (p.1.line p.2).Handed) (event : ConnectionEvent B C) :
    ((event.observed.apply p).1.line (event.observed.apply p).2).Handed := by
  cases event with
  | start =>
    obtain ⟨added, hstart⟩ := Session.stateOf_start p.1
    rw [observed, apply_start, hstart]
    exact .of_idle rfl
  | receive chunk =>
    rw [observed, apply_receive, Session.stateOf_receive]
    obtain ⟨added, -, hqueue⟩ := Session.queue_reception hs.coherent chunk
    generalize stateOf (Session.reception chunk p.1) = r at hqueue ⊢
    cases hended : r.2.ended with
    | true =>
      refine .of_idle ?_
      show (p.1.settle r.1 r.2).transmitter.inFlight = 0
      rw [Session.transmitter_settle, if_pos hended]
      rfl
    | false =>
      have hline : (p.1.settle r.1 r.2).line p.2
          = { p.1.line p.2 with queue := p.1.queue.extend added } := by
        unfold Session.line
        rw [Session.transmitter_settle, Session.queue_settle, hqueue, hended]
        rfl
      rw [hline]
      exact h.extend added
  | tick =>
    rw [observed, apply_tick]
    exact h.tick
  | post posting =>
    obtain ⟨added, hpost⟩ := Session.stateOf_post posting p.1
    rw [observed, apply_post, hpost]
    exact h.extend added
  | boardChanges f => exact h
  | channelChanges f => exact ⟨h.fits, h.last⟩

theorem handed_run {p : Connection (Monitored B) (Tapped C)} (hs : p.1.Sized settings)
    (h : (p.1.line p.2).Handed) (events : List (ConnectionEvent B C)) :
    ((run (events.map observed) p).1.line (run (events.map observed) p).2).Handed := by
  induction events generalizing p with
  | nil => exact h
  | cons event events ih => exact ih (hs.apply _) (handed_apply hs h event)

end ConnectionEvent

/-! ### What a tick takes out -/

namespace Session

variable {B C : Type} [Board B] [Channel C] {settings : Settings} {s : Session B}

/-- A tick before a ready channel counts what was on its way, and takes it out, whether its own
write succeeds or not. -/
theorem tick_of_ready {channel : C} (hready : Channel.ready channel = true) (s : Session B) :
    (stateOf (tick (s, channel))).1.queue.content
        = s.queue.content.drop s.transmitter.inFlight ∧
      (stateOf (tick (s, channel))).1.transmitter.confirmed
        = s.transmitter.confirmed + s.transmitter.inFlight := by
  have hcontent := Line.confirm_content (l := s.line channel)
  have hconfirmed := Line.confirm_confirmed (l := s.line channel)
  rw [stateOf_tick]
  show (Line.left (Line.tick (s.line channel))).queue.content = _
    ∧ (Line.left (Line.tick (s.line channel))).transmitter.confirmed = _
  have hticked := Line.ticked (s.line channel)
  generalize Line.tick (s.line channel) = result at hticked ⊢
  cases hticked with
  | waiting hwaiting => exact absurd (hready.symm.trans hwaiting) (by decide)
  | idle _ hspan => exact ⟨hcontent, hconfirmed⟩
  | written _ hspan hwrite => exact ⟨hcontent, hconfirmed⟩
  | failed _ hspan hwrite => exact ⟨hcontent, hconfirmed⟩

/-- A tick before a channel that is not ready is housekeeping and nothing else. -/
theorem tick_of_not_ready {channel : C} (hready : Channel.ready channel = false)
    (s : Session B) :
    tick (s, channel) = .ok 0 ({ s with board := Board.housekeeping s.board }, channel) := by
  have hline : Line.tick (s.line channel) = .ok 0 (s.line channel) := by
    show (if Channel.ready channel then _ else _) = _
    rw [hready]
    rfl
  rw [tick_eq, hline]
  rfl

/-- **A byte leaves the queue only after it was handed over.**

Take a session with nothing on its way, new or just opened, and let anything happen to it.  Then
the bytes on their way are in the queue, and they are the span that the channel accepted last, since
the session was taken up.  So these are what the next tick takes out and counts. -/
theorem taken_out_handed_over (h : s.Attainable settings) (hidle : s.transmitter.inFlight = 0)
    (channel : C) (events : List (ConnectionEvent B C)) :
    let p := ConnectionEvent.run events (s, channel)
    let seen := ConnectionEvent.run (events.map .observed) (Connection.observed (s, channel))
    let onWay := p.1.transmitter.inFlight
    seen.unobserved = p ∧
    onWay ≤ p.1.queue.length ∧
    (0 < onWay → seen.2.accepted.getLast? = some (p.1.queue.content.take onWay)) ∧
    ∀ (D : Type) [Channel D] (d : D),
      (Channel.ready d = true →
        (stateOf (tick (p.1, d))).1.queue.content = p.1.queue.content.drop onWay ∧
        (stateOf (tick (p.1, d))).1.transmitter.confirmed = p.1.transmitter.confirmed + onWay) ∧
      (Channel.ready d = false →
        tick (p.1, d) = .ok 0 ({ p.1 with board := Board.housekeeping p.1.board }, d)) := by
  intro p seen onWay
  have hseen : seen.unobserved = p :=
    (ConnectionEvent.run_unobserved events (Connection.observed (s, channel))).symm
  have htransmitter : seen.1.transmitter = p.1.transmitter := by rw [← hseen]; rfl
  have hqueue : seen.1.queue = p.1.queue := by rw [← hseen]; rfl
  have hstart : (s.watched.line (⟨channel, []⟩ : Tapped C)).Handed := .of_idle hidle
  have hhanded : (seen.1.line seen.2).Handed :=
    ConnectionEvent.handed_run (p := Connection.observed (s, channel)) h.sized.watched hstart events
  have hfits := hhanded.fits
  have hlast := hhanded.last
  simp only [line, htransmitter, hqueue] at hfits hlast
  exact ⟨hseen, hfits, hlast, fun D _ d =>
    ⟨fun hready => tick_of_ready hready p.1, fun hready => tick_of_not_ready hready p.1⟩⟩

/-- The theorem for a session that is opened again while its greeting is on its way, and then sends
the new one before another channel. -/
theorem taken_out_handed_over_reopened :
    let past : List (ConnectionEvent VirtualBoard Recorder) := [.start, .tick, .start]
    let s := (ConnectionEvent.run past (.new .standard (.new .standard), Recorder.deferring)).1
    let events : List (ConnectionEvent VirtualBoard Recorder) := [.tick, .post (.bytes [1, 2, 3])]
    let p := ConnectionEvent.run events (s, Recorder.deferring)
    let seen := ConnectionEvent.run (events.map .observed)
      (Connection.observed (s, Recorder.deferring))
    s.Attainable .standard ∧ s.transmitter.inFlight = 0 ∧
    p.1.transmitter.inFlight = 17 ∧ p.1.queue.length = 20 ∧
    seen.2.accepted.getLast? = some (p.1.queue.content.take 17) ∧
    (stateOf (tick (p.1, Recorder.immediate))).1.queue.content = p.1.queue.content.drop 17 := by
  intro past s events p seen
  have hs : s.Attainable .standard :=
    ⟨Recorder, inferInstance, .new .standard, .deferring, past, rfl⟩
  have hidle : s.transmitter.inFlight = 0 := by decide +kernel
  have honWay : p.1.transmitter.inFlight = 17 := by decide +kernel
  have hp : ConnectionEvent.run events (s, Recorder.deferring) = p := rfl
  have hseen : ConnectionEvent.run (events.map .observed)
      (Connection.observed (s, Recorder.deferring)) = seen := rfl
  obtain ⟨-, -, hspan, htick⟩ := taken_out_handed_over hs hidle Recorder.deferring events
  rw [hp, hseen, honWay] at hspan
  rw [hp, honWay] at htick
  have htaken := (htick Recorder .immediate).1 rfl
  exact ⟨hs, hidle, honWay, by decide +kernel, hspan (by decide), htaken.1⟩

end Session
end PinBridge
