/-
PinBridge/Proofs/Channel/Written.lean

What becomes of a span that is written to a channel.

A channel that is open makes calls to its writer, and they take one of four
courses (`Course`): the writer takes nothing, or fails, or takes everything and
then the flush fails, or all goes well.  Whatever is said of a span is read off
its course by cases.

A span sees no more of the scripts than the answers to its calls
(`write_extendScript`).  So a writer that answers without end is covered as
well: a front of its answers is all that is seen.

Main statement: `write_classified`.
-/
import PinBridge.Proofs.Channel.Calls
import PinBridge.Proofs.Receiver.Handled

namespace PinBridge

open ScriptedWriter

namespace WriterChannel

variable {c : WriterChannel} {data : Bytes} {calls : List WriteCall} {replies : List FlushReply}

/-- The channel after these calls to its writer, with so many bytes handed over in all. -/
def called (c : WriterChannel) (calls : List WriteCall) (replies : List FlushReply)
    (handedOver : Nat) : WriterChannel :=
  { c with writer := c.writer.after calls replies.length, handedOver }

/-- What can become of a span, by the calls to write and the answers to the calls to flush. -/
inductive Course (c : WriterChannel) (data : Bytes) :
    List WriteCall → List FlushReply → EStateM.Result ChannelError WriterChannel Unit → Prop
  /-- The writer takes nothing, which closes the channel. -/
  | refused {calls : List WriteCall} (h : HandedOver data calls .refused) :
      Course c data calls [] (.error .closed { c.called calls [] c.handedOver with closed := true })
  | failed {calls : List WriteCall} {f : SystemFault} (h : HandedOver data calls (.failed f)) :
      Course c data calls [] (.error (.fault f) (c.called calls [] c.handedOver))
  /-- Everything is taken, and the flush fails. -/
  | unflushed {calls : List WriteCall} {replies : List FlushReply} {f : SystemFault}
      (h : HandedOver data calls .emptied)
      (hreplies : replies.findSome? FlushReply.fault? = some f)
      (hdone : replies.find? (· ≠ .fails .interrupted) ≠ some .done) :
      Course c data calls replies
        (.error (.fault f) (c.called calls replies (c.handedOver + data.length)))
  | done {calls : List WriteCall} {replies : List FlushReply} (h : HandedOver data calls .emptied)
      (hreplies : replies.findSome? FlushReply.fault? = none)
      (hdone : replies.find? (· ≠ .fails .interrupted) = some .done) :
      Course c data calls replies (.ok () (c.called calls replies (c.handedOver + data.length)))

theorem closed_of_not_ready (h : Channel.ready c = false) : c.closed = true :=
  (Bool.not_eq_false' _).mp h

theorem open_of_ready (h : Channel.ready c = true) : c.closed = false :=
  (Bool.not_eq_true' _).mp h

theorem write_of_closed (h : c.closed = true) (data : Bytes) :
    Channel.write data c = .error .closed c :=
  if_pos h

/-- After the calls to write come those to flush, with the answers of the script. -/
theorem flush_called (c : WriterChannel) (calls : List WriteCall) (handedOver : Nat) :
    flush (c.called calls [] handedOver) =
      let f := Flushing.run c.writer.flushes
      let flushed := c.called calls (flushReplies c.writer.flushes f.calls) handedOver
      match f.fault with
      | none => .ok () flushed
      | some fault => .error (.fault fault) flushed := by
  have hscript := (Flushing.flushed c.writer.flushes).1
  cases hfault : (Flushing.run c.writer.flushes).fault with
  | none => simp [flush, called, ScriptedWriter.after, hfault, hscript]
  | some f => simp [flush, called, ScriptedWriter.after, hfault, hscript]

/-- A span is handed over, and flushed if all of it has been taken. -/
theorem write_of_open (h : c.closed = false) (data : Bytes) :
    Channel.write data c =
      let handed := Handover.run c.writer.writes data
      let calls := answered c.writer.writes handed.offers
      match handed.stop with
      | .refused => .error .closed { c.called calls [] c.handedOver with closed := true }
      | .failed f => .error (.fault f) (c.called calls [] c.handedOver)
      | .emptied => flush (c.called calls [] (c.handedOver + data.length)) := by
  obtain ⟨-, htaken, hscript⟩ := Handover.handedOver c.writer.writes data
  have hopen : ¬ c.closed = true := by simp [h]
  show c.write data = _
  cases hstop : (Handover.run c.writer.writes data).stop <;>
    simp [write, if_neg hopen, called, ScriptedWriter.after, hstop, htaken, hscript]

/-- **On a channel that is open, a span takes one of these courses**, and the answers are those of
the scripts. -/
theorem course (h : c.closed = false) (data : Bytes) :
    ∃ (calls : List WriteCall) (replies : List FlushReply),
      calls = answered c.writer.writes (calls.map WriteCall.offer) ∧
      replies = flushReplies c.writer.flushes replies.length ∧
      Course c data calls replies (Channel.write data c) := by
  obtain ⟨hhanded, -, -⟩ := Handover.handedOver c.writer.writes data
  obtain ⟨-, hfault, hdone⟩ := Flushing.flushed c.writer.flushes
  rw [write_of_open h data]
  dsimp only
  refine ⟨answered c.writer.writes (Handover.run c.writer.writes data).offers, ?_⟩
  rw [map_offer_answered]
  -- a flush is called only if nothing is left
  cases hstop : (Handover.run c.writer.writes data).stop with
  | refused => exact ⟨[], rfl, rfl, .refused (hstop ▸ hhanded)⟩
  | failed f => exact ⟨[], rfl, rfl, .failed (hstop ▸ hhanded)⟩
  | emptied =>
    refine ⟨flushReplies c.writer.flushes (Flushing.run c.writer.flushes).calls, rfl, ?_, ?_⟩
    · rw [length_flushReplies]
    · dsimp only
      rw [flush_called]
      dsimp only
      cases hflush : (Flushing.run c.writer.flushes).fault with
      | none => exact .done (hstop ▸ hhanded) (hfault ▸ hflush) (hdone.1 hflush)
      | some f =>
        refine .unflushed (hstop ▸ hhanded) (hfault ▸ hflush) fun hfound => ?_
        rw [hdone.2 hfound] at hflush
        cases hflush

/-- A flush sees no more of the script than the answers to its calls. -/
theorem flush_extendScript (h : (stateOf (flush c)).writer.flushes ≠ [])
    (writes : List WriteReply) (flushes : List FlushReply) :
    flush (c.extendScript writes flushes) = mapState (extendScript writes flushes) (flush c) := by
  have hleft : (stateOf (flush c)).writer.flushes = (Flushing.run c.writer.flushes).script := by
    unfold flush
    dsimp only
    cases (Flushing.run c.writer.flushes).fault <;> rfl
  have hrun := Flushing.run_append (hleft ▸ h) flushes
  simp only [flush, extendScript, hrun]
  cases (Flushing.run c.writer.flushes).fault <;> rfl

theorem writes_flush (c : WriterChannel) :
    (stateOf (flush c)).writer.writes = c.writer.writes := by
  unfold flush
  dsimp only
  cases (Flushing.run c.writer.flushes).fault <;> rfl

/-- **A span sees no more of the scripts than the answers to its calls**: as long as they do not run
out, it does not matter how they go on. -/
theorem write_extendScript (hwrites : (stateOf (Channel.write data c)).writer.writes ≠ [])
    (hflushes : (stateOf (Channel.write data c)).writer.flushes ≠ []) (writes : List WriteReply)
    (flushes : List FlushReply) :
    Channel.write data (c.extendScript writes flushes)
      = mapState (extendScript writes flushes) (Channel.write data c) := by
  cases hclosed : c.closed with
  | true =>
    have hclosed' : (c.extendScript writes flushes).closed = true := hclosed
    rw [write_of_closed hclosed, write_of_closed hclosed']
    rfl
  | false =>
    have hopen : ¬ c.closed = true := by simp [hclosed]
    have hopen' : ¬ (c.extendScript writes flushes).closed = true := hopen
    change (stateOf (c.write data)).writer.writes ≠ [] at hwrites
    change (stateOf (c.write data)).writer.flushes ≠ [] at hflushes
    show (c.extendScript writes flushes).write data = mapState _ (c.write data)
    simp only [write, if_neg hopen, if_neg hopen'] at hwrites hflushes ⊢
    -- no flush looks at the script for calls to write
    have hleft : (Handover.run c.writer.writes data).script ≠ [] := by
      cases hstop : (Handover.run c.writer.writes data).stop with
      | emptied =>
        simp only [hstop, writes_flush] at hwrites
        exact hwrites
      | _ =>
        simp only [hstop] at hwrites
        exact hwrites
    have hrun : Handover.run (c.extendScript writes flushes).writer.writes data = _ :=
      Handover.run_append hleft writes
    rw [hrun]
    cases hstop : (Handover.run c.writer.writes data).stop with
    | emptied =>
      simp only [hstop] at hflushes
      exact flush_extendScript hflushes writes flushes
    | _ => rfl

/-! ### What becomes of spans -/

/-- Write one span after the other, whatever becomes of them: what each one fails with, and the
channel that is left. -/
def writeEach : List Bytes → WriterChannel → List (Option ChannelError) × WriterChannel
  | [], c => ([], c)
  | span :: spans, c =>
    let (errors, left) := writeEach spans (stateOf (Channel.write span c))
    (errorOf (Channel.write span c) :: errors, left)

/-- Once a channel is closed, its writer is not called any more. -/
theorem writeEach_of_closed (h : c.closed = true) (spans : List Bytes) :
    writeEach spans c = (spans.map fun _ => some .closed, c) := by
  induction spans with
  | nil => rfl
  | cons span spans ih =>
    rw [writeEach, write_of_closed h, stateOf, ih]
    rfl

/-- What is said of a span that is written to a channel that is open. -/
structure Written (c : WriterChannel) (data : Bytes) (calls : List WriteCall)
    (replies : List FlushReply) : Prop where
  /-- The answers are those of the scripts, and the writer has had these calls and no others. -/
  writeReplies : calls = answered c.writer.writes (calls.map WriteCall.offer)
  flushReplies : replies = flushReplies c.writer.flushes replies.length
  writer : (stateOf (Channel.write data c)).writer = c.writer.after calls replies.length
  /-- A front of the span is taken, and each call is offered the rest of it, which is not empty, and
  is made only if no call before it has ended the handing over. -/
  front : calls.flatMap WriteCall.taken <+: data
  offered : ∀ before call after, calls = before ++ call :: after →
    call.offer ≠ [] ∧ before.flatMap WriteCall.taken ++ call.offer = data ∧
      ∀ earlier ∈ before, earlier.reply.stop? = none
  /-- The span is written if all of it is taken and the first answer to a flush that is no
  interruption is that it is done. -/
  ok_iff : errorOf (Channel.write data c) = none ↔
    calls.flatMap WriteCall.taken = data ∧
      replies.find? (· ≠ .fails .interrupted) = some .done
  /-- The channel is closed if the writer takes nothing of what it is offered, and only then. -/
  closed_iff : errorOf (Channel.write data c) = some .closed ↔
    ∃ call ∈ calls, call.reply = .takes 0
  ready_iff : Channel.ready (stateOf (Channel.write data c)) = false ↔
    ∃ call ∈ calls, call.reply = .takes 0
  /-- Once it is closed, no call is made to its writer any more, whatever is written. -/
  closed_for_good : Channel.ready (stateOf (Channel.write data c)) = false →
    ∀ spans : List Bytes, writeEach spans (stateOf (Channel.write data c))
      = (spans.map fun _ => some .closed, stateOf (Channel.write data c))
  /-- A fault is passed on if it is the first one that is no interruption: of the calls to write, or
  of those to flush when all is taken. -/
  fault_iff : ∀ f, errorOf (Channel.write data c) = some (.fault f) ↔
    calls.findSome? (fun call => call.reply.fault?) = some f ∨
      calls.flatMap WriteCall.taken = data ∧ replies.findSome? FlushReply.fault? = some f
  not_interrupted : errorOf (Channel.write data c) ≠ some (.fault .interrupted)
  /-- Apart from interruptions there are no more calls to write than the span has bytes. -/
  length_le : calls.countP (fun call => call.reply ≠ .fails .interrupted) ≤ data.length
  /-- How the scripts go on is not seen. -/
  unseen : (stateOf (Channel.write data c)).writer.writes ≠ [] →
    (stateOf (Channel.write data c)).writer.flushes ≠ [] →
      ∀ (writes : List WriteReply) (flushes : List FlushReply),
        Channel.write data (c.extendScript writes flushes)
          = mapState (extendScript writes flushes) (Channel.write data c)

namespace Course

variable {result : EStateM.Result ChannelError WriterChannel Unit}

theorem handedOver (h : Course c data calls replies result) :
    ∃ stop, HandedOver data calls stop := by
  cases h with
  | refused h => exact ⟨_, h⟩
  | failed h => exact ⟨_, h⟩
  | unflushed h => exact ⟨_, h⟩
  | done h => exact ⟨_, h⟩

theorem writer (h : Course c data calls replies result) :
    (stateOf result).writer = c.writer.after calls replies.length := by
  cases h <;> rfl

theorem ok_iff (h : Course c data calls replies result) :
    errorOf result = none ↔ calls.flatMap WriteCall.taken = data ∧
      replies.find? (· ≠ .fails .interrupted) = some .done := by
  cases h with
  | refused h => simp [errorOf, ← h.emptied_iff]
  | failed h => simp [errorOf, ← h.emptied_iff]
  | unflushed h hreplies hdone => exact iff_of_false (Option.some_ne_none _) fun hok => hdone hok.2
  | done h hreplies hdone => exact iff_of_true rfl ⟨h.emptied_iff.1 rfl, hdone⟩

theorem closed_iff (h : Course c data calls replies result) :
    errorOf result = some .closed ↔ ∃ call ∈ calls, call.reply = .takes 0 := by
  cases h with
  | refused h => exact iff_of_true rfl (h.refused_iff.1 rfl)
  | failed h => simp [errorOf, ← h.refused_iff]
  | unflushed h => simp [errorOf, ← h.refused_iff]
  | done h => simp [errorOf, ← h.refused_iff]

theorem ready_iff (hopen : c.closed = false) (h : Course c data calls replies result) :
    Channel.ready (stateOf result) = false ↔ ∃ call ∈ calls, call.reply = .takes 0 := by
  rw [← h.closed_iff]
  cases h with
  | refused h => exact iff_of_true rfl rfl
  | failed h => simp [errorOf, stateOf, Channel.ready, ready, called, hopen]
  | unflushed h => simp [errorOf, stateOf, Channel.ready, ready, called, hopen]
  | done h => simp [errorOf, stateOf, Channel.ready, ready, called, hopen]

theorem fault_iff (h : Course c data calls replies result) (f : SystemFault) :
    errorOf result = some (.fault f) ↔ calls.findSome? (fun call => call.reply.fault?) = some f ∨
      calls.flatMap WriteCall.taken = data ∧ replies.findSome? FlushReply.fault? = some f := by
  cases h with
  | refused h => simp [errorOf, ← h.failed_iff, ← h.emptied_iff]
  | failed h => simp [errorOf, ← h.failed_iff, ← h.emptied_iff]
  | unflushed h hreplies => simp [errorOf, ← h.failed_iff, ← h.emptied_iff, hreplies]
  | done h hreplies => simp [errorOf, ← h.failed_iff, ← h.emptied_iff, hreplies]

end Course

/-- **What is said of a span holds of its course.** -/
theorem exists_written (hopen : c.closed = false) (data : Bytes) :
    ∃ (calls : List WriteCall) (replies : List FlushReply), c.Written data calls replies := by
  obtain ⟨calls, replies, hcalls, hreplies, hcourse⟩ := course hopen data
  obtain ⟨stop, hhanded⟩ := hcourse.handedOver
  refine ⟨calls, replies, hcalls, hreplies, hcourse.writer, hhanded.front, hhanded.offered,
    hcourse.ok_iff, hcourse.closed_iff, hcourse.ready_iff hopen, ?_, hcourse.fault_iff, ?_,
    hhanded.length_le, write_extendScript⟩
  · intro hready
    exact writeEach_of_closed (closed_of_not_ready hready)
  · -- a fault that is passed on is that of an answer, and no interruption is passed on
    intro hfault
    rcases (hcourse.fault_iff _).1 hfault with hwrite | ⟨-, hflush⟩
    · obtain ⟨call, -, hcall⟩ := List.exists_of_findSome?_eq_some hwrite
      exact call.reply.fault?_ne_interrupted hcall
    · obtain ⟨reply, -, hreply⟩ := List.exists_of_findSome?_eq_some hflush
      exact reply.fault?_ne_interrupted hreply

/-- **A span is handed over in order, and however that ends, it is told.**  On a channel that is
closed nothing is called any more, whatever is written.  On one that is open the writer is called
with what it has not taken, again and again: what it takes is a front of the span, an interruption
neither skips a byte nor repeats one and is never told, the span is written if all of it has been
taken and flushed, the channel is closed if the writer takes nothing, and a fault is passed on if it
is the first one.  Nothing else closes the channel. -/
theorem write_classified (c : WriterChannel) (data : Bytes) :
    if Channel.ready c then
      ∃ (calls : List WriteCall) (replies : List FlushReply), c.Written data calls replies
    else
      Channel.write data c = .error .closed c ∧
        ∀ spans : List Bytes, writeEach spans c = (spans.map fun _ => some .closed, c) := by
  cases hready : Channel.ready c with
  | false =>
    have hclosed : c.closed = true := closed_of_not_ready hready
    exact ⟨write_of_closed hclosed data, writeEach_of_closed hclosed⟩
  | true => exact exists_written (open_of_ready hready) data

end WriterChannel
end PinBridge
