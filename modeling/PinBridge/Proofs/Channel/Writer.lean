/-
PinBridge/Proofs/Channel/Writer.lean

What a writer has taken of a span, however its course ends.

What is taken is always a front of the span, and the channel counts the span if
this is all of it (`exists_front`).  So a span that is reported as written has
been taken whole (`taken_of_write_ok`).  The converse does not hold: a span that
is reported as failed may have been taken in part, and even whole, when the
flush is what failed (`taken_of_write_error`).
-/
import PinBridge.Proofs.Channel.Written

namespace PinBridge
namespace WriterChannel

variable {c c' : WriterChannel} {span : Bytes} {e : ChannelError}

/-- The bytes that the writer beneath has taken. -/
def taken (c : WriterChannel) : Bytes := c.writer.taken

namespace Course

variable {calls : List WriteCall} {replies : List FlushReply}
  {result : EStateM.Result ChannelError WriterChannel Unit}

/-- The writer has taken what its calls to write took. -/
theorem taken (h : Course c span calls replies result) :
    (stateOf result).taken = c.taken ++ calls.flatMap WriteCall.taken :=
  congrArg ScriptedWriter.taken h.writer

/-- A span is counted if the writer has taken all of it. -/
theorem counted (h : Course c span calls replies result) :
    (stateOf result).handedOver
      = c.handedOver + if calls.flatMap WriteCall.taken = span then span.length else 0 := by
  cases h with
  | refused h => simp [stateOf, called, ← h.emptied_iff]
  | failed h => simp [stateOf, called, ← h.emptied_iff]
  | unflushed h => simp [stateOf, called, ← h.emptied_iff]
  | done h => simp [stateOf, called, ← h.emptied_iff]

end Course

/-- **Whatever becomes of a span, a front of it has been taken**, and it is counted if that is all
of it. -/
theorem exists_front (span : Bytes) (c : WriterChannel) :
    ∃ front, front <+: span ∧ (stateOf (Channel.write span c)).taken = c.taken ++ front ∧
      (stateOf (Channel.write span c)).handedOver
        = c.handedOver + if front = span then span.length else 0 := by
  cases hclosed : c.closed with
  | true =>
    rw [write_of_closed hclosed]
    refine ⟨[], List.nil_prefix, (List.append_nil _).symm, ?_⟩
    -- a span that is empty counts nothing, whether it is taken or not
    cases span <;> rfl
  | false =>
    obtain ⟨calls, replies, -, -, hcourse⟩ := course hclosed span
    obtain ⟨stop, hhanded⟩ := hcourse.handedOver
    exact ⟨_, hhanded.front, hcourse.taken, hcourse.counted⟩

/-- A span that is reported as written has been taken whole. -/
theorem taken_of_write_ok (h : Channel.write span c = .ok () c') :
    c'.taken = c.taken ++ span := by
  cases hclosed : c.closed with
  | true =>
    rw [write_of_closed hclosed] at h
    cases h
  | false =>
    obtain ⟨calls, replies, -, -, hcourse⟩ := course hclosed span
    rw [h] at hcourse
    have htaken : c'.taken = c.taken ++ calls.flatMap WriteCall.taken := hcourse.taken
    rw [htaken, (hcourse.ok_iff.1 rfl).1]

/-- Of a span that is reported as failed a front has been taken. -/
theorem taken_of_write_error (h : Channel.write span c = .error e c') :
    ∃ front, front <+: span ∧ c'.taken = c.taken ++ front := by
  obtain ⟨front, hfront, htaken, -⟩ := exists_front span c
  rw [h] at htaken
  exact ⟨front, hfront, htaken⟩

end WriterChannel
end PinBridge
