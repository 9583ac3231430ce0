/-
PinBridge/Proofs/Queue/Spans.lean

In how many pieces the content of a queue is read.

The content of a ring is longer than what can be read in one piece only if it
wraps around, and then what is left behind the first piece starts at slot 0 and
cannot wrap around again.  So there are never more than two pieces
(`Queue.spans`).  All that this needs of a queue is that its content fits the
slots and starts at one of them (`Queue.Sound`), which nothing that may be done
to a queue can undo.

Main statements: `Sound.perform`, and `Sound.spans_pull_head`, each piece that
is taken out leaves one less to be read.
-/
import PinBridge.Proofs.Queue.Fifo

namespace PinBridge
namespace Queue

variable {q q' : Queue}

/-- The content fits the slots, and starts at one of them if there are any. -/
structure Sound (q : Queue) : Prop where
  length_le : q.content.length ≤ q.capacity
  first_lt : 0 < q.capacity → q.readIndex < q.capacity

namespace Sound

theorem empty (capacity : Nat) : (empty capacity).Sound := ⟨Nat.zero_le _, id⟩

theorem extend (h : q.Sound) {bs : Bytes} (hfits : bs.length ≤ q.free) : (q.extend bs).Sound := by
  refine ⟨?_, h.first_lt⟩
  have hlength : q.content.length ≤ q.capacity := h.length_le
  have hroom : bs.length ≤ q.capacity - q.content.length := hfits
  show (q.content ++ bs).length ≤ q.capacity
  rw [List.length_append]
  omega

theorem pull (h : q.Sound) (n : Nat) : (q.pull n).Sound := by
  refine ⟨?_, fun hpos => ?_⟩
  · show (q.content.drop n).length ≤ q.capacity
    rw [List.length_drop]
    exact Nat.le_trans (Nat.sub_le _ _) h.length_le
  · exact Ring.pull (h.first_lt hpos) n

theorem clear (q : Queue) : q.clear.Sound := ⟨Nat.zero_le _, id⟩

/-- A message goes in only if it fits. -/
theorem pushParts (h : q.Sound) {header trailer : Bytes}
    (hpush : q.pushParts header trailer = .ok q') : q'.Sound := by
  rw [pushParts_eq] at hpush
  split at hpush
  · cases hpush
  next hfits =>
    cases hpush
    exact h.extend (Nat.le_of_not_lt hfits)

theorem offer (h : q.Sound) (header trailer : Bytes) :
    (QueueOp.offer header trailer q).2.Sound := by
  cases hpush : q.pushParts header trailer with
  | ok q' =>
    have hoffer : (QueueOp.offer header trailer q).2 = q' := by
      simp only [QueueOp.offer, ByteQueue.pushParts, hpush]
    rw [hoffer]
    exact h.pushParts hpush
  | error e =>
    have hoffer : (QueueOp.offer header trailer q).2 = q := by
      simp only [QueueOp.offer, ByteQueue.pushParts, hpush]
    rw [hoffer]
    exact h

/-- **Nothing that may be asked of a queue can undo its soundness.** -/
theorem perform (h : q.Sound) (op : QueueOp) : (op.perform q).2.Sound := by
  cases op with
  | push data => exact h.offer data []
  | pushParts header trailer => exact h.offer header trailer
  | pull n => exact h.pull n
  | head => exact h
  | sizes => exact h
  | clear => exact .clear q

/-- The content of a sound queue starts at a slot. -/
theorem ring (h : q.Sound) (hcontent : q.content ≠ []) : q.Ring := by
  have hpos : 0 < q.content.length := List.length_pos_iff.2 hcontent
  exact h.first_lt (Nat.lt_of_lt_of_le hpos h.length_le)

end Sound

/-- Whether the content goes on behind the last slot. -/
def Wraps (q : Queue) : Prop := q.capacity - q.readIndex < q.content.length

instance (q : Queue) : Decidable q.Wraps := Nat.decLt _ _

/-- In how many pieces the content is read. -/
def spans (q : Queue) : Nat :=
  if q.content = [] then 0 else if q.Wraps then 2 else 1

theorem spans_of_nil (h : q.content = []) : q.spans = 0 := if_pos h

theorem spans_of_wraps (h : q.Wraps) : q.spans = 2 := by
  have hcontent : q.content ≠ [] := by
    intro hnil
    have hlt : q.capacity - q.readIndex < q.content.length := h
    rw [hnil] at hlt
    cases hlt
  rw [spans, if_neg hcontent, if_pos h]

theorem spans_of_straight (hcontent : q.content ≠ []) (h : ¬q.Wraps) : q.spans = 1 := by
  rw [spans, if_neg hcontent, if_neg h]

theorem spans_le_two (q : Queue) : q.spans ≤ 2 := by
  unfold spans
  split
  · decide
  · split <;> decide

/-- No piece is empty. -/
theorem Sound.spans_le_length (h : q.Sound) : q.spans ≤ q.content.length := by
  by_cases hcontent : q.content = []
  · rw [spans_of_nil hcontent]
    exact Nat.zero_le _
  · have hpos : 0 < q.content.length := List.length_pos_iff.2 hcontent
    by_cases hwraps : q.Wraps
    · -- the first piece has the slots from the first byte on, and there is more
      have hring : q.readIndex < q.capacity := h.ring hcontent
      have hlt : q.capacity - q.readIndex < q.content.length := hwraps
      rw [spans_of_wraps hwraps]
      omega
    · rw [spans_of_straight hcontent hwraps]
      exact hpos

/-- **Each piece that is taken out leaves one less to be read.** -/
theorem Sound.spans_pull_head (h : q.Sound) (hcontent : q.content ≠ []) :
    (q.pull q.head.length).spans + 1 = q.spans := by
  have hlength : q.head.length = min (q.capacity - q.readIndex) q.content.length :=
    List.length_take
  by_cases hwraps : q.Wraps
  · have hring : q.readIndex < q.capacity := h.ring hcontent
    have hlt : q.capacity - q.readIndex < q.content.length := hwraps
    have hle : q.content.length ≤ q.capacity := h.length_le
    have hhead : q.head.length = q.capacity - q.readIndex := by omega
    have hrest : (q.pull q.head.length).content ≠ [] := by
      rw [content_pull, ← List.length_pos_iff, List.length_drop]
      omega
    -- the first piece ends at the last slot, so the rest starts at slot 0
    have hfirst : (q.pull q.head.length).readIndex = 0 := by
      show (if (q.pull q.head.length).content.isEmpty then 0
        else (q.readIndex + min q.head.length q.content.length) % q.capacity) = 0
      have hround : q.readIndex + min q.head.length q.content.length = q.capacity := by omega
      rw [if_neg (by rwa [List.isEmpty_iff]), hround, Nat.mod_self]
    have hstraight : ¬(q.pull q.head.length).Wraps := by
      show ¬q.capacity - (q.pull q.head.length).readIndex
        < (q.content.drop q.head.length).length
      rw [hfirst, List.length_drop]
      omega
    rw [spans_of_straight hrest hstraight, spans_of_wraps hwraps]
  · have hall : q.content.length ≤ q.head.length := by
      have hge : ¬q.capacity - q.readIndex < q.content.length := hwraps
      omega
    have hrest : (q.pull q.head.length).content = [] := List.drop_of_length_le hall
    rw [spans_of_nil hrest, spans_of_straight hcontent hwraps]

end Queue
end PinBridge
