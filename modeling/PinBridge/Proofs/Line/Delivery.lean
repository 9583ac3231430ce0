/-
PinBridge/Proofs/Line/Delivery.lean

Over a recorder every accepted byte arrives once, and in order.

A recorder that is ready takes a span whole, so a tick never fails.  What is
recorded is then always the front of what has been accepted, as far as the
transmitter has passed: a span that is written is what comes next, and
confirming it moves bytes from "on their way" to "confirmed" and no further.
This does not depend on where the ring of the queue wraps around, on when the
channel completes, or on messages coming in between.

Main statement: `delivered_once`, for any run from the start.
-/
import PinBridge.Proofs.Line.Backed
import PinBridge.Channel.Recorder

namespace PinBridge

/-! ### Runs -/

/-- What may happen to a line over a recorder. -/
inductive RecorderEvent where
  | enqueue (data : Bytes)
  | enqueueParts (header trailer : Bytes)
  | tick
  | complete
  | close
  deriving DecidableEq, Repr

namespace RecorderEvent

def apply : RecorderEvent → Traffic Recorder → Traffic Recorder
  | .enqueue data, t => t.offer data []
  | .enqueueParts header trailer, t => t.offer header trailer
  | .tick, t => t.tick
  | .complete, t => t.onChannel Recorder.complete
  | .close, t => t.onChannel Recorder.close

/-- One event after the other. -/
def run (events : List RecorderEvent) (t : Traffic Recorder) : Traffic Recorder :=
  events.foldl (fun t event => event.apply t) t

end RecorderEvent

/-! ### Ticks over a recorder -/

namespace Recorder

theorem ready_eq_true_iff {c : Recorder} :
    Channel.ready c = true ↔ c.closed = false ∧ c.inFlight = none := by
  show (!c.closed && c.inFlight.isNone) = true ↔ c.closed = false ∧ c.inFlight = none
  rw [Bool.and_eq_true, Bool.not_eq_true', Option.isNone_iff_eq_none]

/-- A recorder that is ready takes a span whole. -/
theorem write_of_ready {c : Recorder} (hready : Channel.ready c = true) (span : Bytes) :
    Channel.write span c = .ok () { c with
      writes := c.writes ++ [span]
      inFlight := if c.defers then some span.length else none } := by
  obtain ⟨hclosed, hnone⟩ := ready_eq_true_iff.1 hready
  show c.write span = _
  simp [write, hclosed, hnone]

end Recorder

/-- A tick over a recorder writes at most one span, and none while one is on its way. -/
theorem Line.tick_recorder (l : Line Recorder) :
    ∃ (spans : List Bytes) (next : Line Recorder),
      Line.tick l = .ok spans.flatten.length next ∧
      next.channel.writes = l.channel.writes ++ spans ∧ spans.length ≤ 1 ∧
      (l.channel.inFlight ≠ none → spans = []) := by
  have hticked := l.ticked
  generalize Line.tick l = result at hticked ⊢
  cases hticked with
  | waiting hready => exact ⟨[], l, rfl, (List.append_nil _).symm, Nat.zero_le 1, fun _ => rfl⟩
  | idle hready hspan =>
    refine ⟨[], l.confirm, rfl, ?_, Nat.zero_le 1, fun _ => rfl⟩
    rw [confirm_channel, List.append_nil]
  | @written channel hready hspan hwrite =>
    rw [Recorder.write_of_ready hready] at hwrite
    cases hwrite
    have hlength : l.confirm.queue.head.length = [l.confirm.queue.head].flatten.length := by
      rw [List.flatten_singleton]
    rw [hlength]
    refine ⟨[l.confirm.queue.head], _, rfl, rfl, Nat.le_refl 1, fun hpending => ?_⟩
    exact absurd (Recorder.ready_eq_true_iff.1 hready).2 hpending
  | failed hready hspan hwrite =>
    -- a recorder that is ready does not fail
    rw [Recorder.write_of_ready hready] at hwrite
    cases hwrite

/-! ### The invariant -/

/-- What is recorded is the front of what has been accepted. -/
structure Delivered (t : Traffic Recorder) : Prop where
  backed : Backed t
  written : t.line.channel.written = t.accepted.take t.line.transmitter.passed

namespace Delivered

variable {t : Traffic Recorder}

theorem start (capacity : Nat) (defers : Bool) :
    Delivered (.start capacity (if defers then .deferring else .immediate)) := by
  refine ⟨.start _ _, ?_⟩
  cases defers <;> rfl

theorem extend (h : Delivered t) (bs : Bytes) : Delivered (t.extend bs) := by
  refine ⟨h.backed.extend bs, ?_⟩
  show t.line.channel.written = (t.accepted ++ bs).take t.line.transmitter.passed
  rw [List.take_append_of_le_length h.backed.passed_le]
  exact h.written

theorem offer (h : Delivered t) (header trailer : Bytes) : Delivered (t.offer header trailer) := by
  rcases t.offer_cases header trailer with hoffer | hoffer
  · rw [hoffer]
    exact h
  · rw [hoffer]
    exact h.extend _

/-- What is written, and then what is queued behind the span on its way, is what has been
accepted. -/
theorem written_append (h : Delivered t) :
    t.line.channel.written ++ t.line.queue.content.drop t.line.transmitter.inFlight
      = t.accepted := by
  rw [h.written, h.backed.content, List.drop_drop]
  exact List.take_append_drop _ _

/-- What a tick writes is what comes next. -/
theorem tick (h : Delivered t) : Delivered t.tick := by
  refine ⟨h.backed.tick, ?_⟩
  have hticked := t.line.ticked
  show (Line.left (Line.tick t.line)).channel.written
    = t.accepted.take (Line.left (Line.tick t.line)).transmitter.passed
  generalize Line.tick t.line = result at hticked ⊢
  cases hticked with
  | waiting hready => exact h.written
  | idle hready hspan =>
    rw [Line.left, Line.confirm_channel, Line.confirm_passed]
    exact h.written
  | @written channel hready hspan hwrite =>
    rw [Recorder.write_of_ready hready] at hwrite
    cases hwrite
    -- the head of the queue comes right after what is written
    show (t.line.channel.writes ++ [t.line.confirm.queue.head]).flatten
      = t.accepted.take (t.line.confirm.transmitter.confirmed + t.line.confirm.queue.head.length)
    rw [List.flatten_append, List.flatten_singleton,
      ← h.backed.confirm.take_append (Queue.head_prefix _), Line.confirm_confirmed, ← h.written]
    rfl
  | failed hready hspan hwrite =>
    rw [Recorder.write_of_ready hready] at hwrite
    cases hwrite

theorem apply (h : Delivered t) (event : RecorderEvent) : Delivered (event.apply t) := by
  cases event with
  | enqueue data => exact h.offer data []
  | enqueueParts header trailer => exact h.offer header trailer
  | tick => exact h.tick
  | complete => exact ⟨h.backed.onChannel _, h.written⟩
  | close => exact ⟨h.backed.onChannel _, h.written⟩

theorem run (h : Delivered t) (events : List RecorderEvent) :
    Delivered (RecorderEvent.run events t) := by
  induction events generalizing t with
  | nil => exact h
  | cons event events ih => exact ih (h.apply event)

end Delivered

/-- **Every accepted byte is written once and in order**, whatever happens in whatever order: what
is recorded is the front of what has been accepted, and the rest is in the queue, behind the span
on its way.  No tick fails, none writes more than one span, and none writes while a span is on its
way. -/
theorem delivered_once (capacity : Nat) (defers : Bool) (events : List RecorderEvent) :
    let t := RecorderEvent.run events (.start capacity (if defers then .deferring else .immediate))
    let written := t.line.channel.written
    let transmitter := t.line.transmitter
    written.length = transmitter.confirmed + transmitter.inFlight ∧
    t.line.queue.content = t.accepted.drop transmitter.confirmed ∧
    t.accepted = written ++ t.line.queue.content.drop transmitter.inFlight ∧
    ∃ (spans : List Bytes) (next : Line Recorder),
      Line.tick t.line = .ok spans.flatten.length next ∧
      next.channel.writes = t.line.channel.writes ++ spans ∧ spans.length ≤ 1 ∧
      (t.line.channel.inFlight ≠ none → spans = []) := by
  intro t written transmitter
  have ht : Delivered t := (Delivered.start capacity defers).run events
  have hwritten : written = t.accepted.take transmitter.passed := ht.written
  refine ⟨?_, ht.backed.content, ?_, t.line.tick_recorder⟩
  · rw [hwritten, List.length_take_of_le ht.backed.passed_le]
    rfl
  · exact ht.written_append.symm

end PinBridge
