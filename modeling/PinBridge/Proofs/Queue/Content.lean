/-
PinBridge/Proofs/Queue/Content.lean

What happens to a queue as a whole.

Bytes that go in are put behind the content and change nothing else
(`Queue.extend`).  The content starts at a slot of the ring (`Queue.Ring`), so
the head of a queue that is not empty is not empty, and taking bytes out keeps
it so.

Main statements: `pushParts_eq`, what is refused and what is put behind the
content; `Ring.head_ne_nil` and `Ring.pull`.
-/
import PinBridge.Queue

namespace PinBridge
namespace Queue

variable {q : Queue}

/-! ### Putting bytes in -/

/-- The queue with further bytes behind its content. -/
def extend (q : Queue) (bs : Bytes) : Queue := { q with content := q.content ++ bs }

@[simp] theorem content_extend (q : Queue) (bs : Bytes) :
    (q.extend bs).content = q.content ++ bs := rfl

@[simp] theorem extend_nil (q : Queue) : q.extend [] = q := by
  simp only [extend, List.append_nil]

@[simp] theorem extend_extend (q : Queue) (a b : Bytes) :
    (q.extend a).extend b = q.extend (a ++ b) := by
  simp only [extend, List.append_assoc]

/-- A message in two parts goes in as one, or not at all. -/
theorem pushParts_eq (header trailer : Bytes) (q : Queue) :
    q.pushParts header trailer =
      if q.free < (header ++ trailer).length then
        .error ⟨(header ++ trailer).length, q.free⟩
      else .ok (q.extend (header ++ trailer)) := by
  simp only [pushParts, extend, List.length_append, List.append_assoc]

/-! ### The ring -/

/-- The first slot of the content lies within the ring. -/
def Ring (q : Queue) : Prop := q.readIndex < q.capacity

/-- A queue that is not empty has a head that is not empty. -/
theorem Ring.head_ne_nil (h : q.Ring) (hcontent : q.content ≠ []) : q.head ≠ [] := by
  intro hhead
  have hlength : (q.content.take (q.capacity - q.readIndex)).length = 0 := by
    rw [← head, hhead, List.length_nil]
  have hpos : 0 < q.content.length := List.length_pos_iff.2 hcontent
  have hring : q.readIndex < q.capacity := h
  rw [List.length_take] at hlength
  omega

theorem Ring.pull (h : q.Ring) (n : Nat) : (q.pull n).Ring := by
  have hcapacity : 0 < q.capacity := Nat.lt_of_le_of_lt (Nat.zero_le _) h
  show (if (q.content.drop n).isEmpty then 0 else (q.readIndex + q.pulled n) % q.capacity)
    < q.capacity
  split
  · exact hcapacity
  · exact Nat.mod_lt _ hcapacity

end Queue
end PinBridge
