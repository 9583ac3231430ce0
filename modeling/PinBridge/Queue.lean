/-
PinBridge/Queue.lean

The bounded queue of bytes that wait to be sent.

A message goes in whole or not at all.  The bytes lie in a ring of `capacity`
slots: the content starts at slot `readIndex`, which moves on as bytes are
taken out and goes back to slot 0 whenever the queue is found empty.  The ring
shows in one place only: `head`, the bytes that can be read in one piece, stops
where the ring wraps around.

Main statements: `content_push`, `content_pull` and `head_append`, which say
what each operation does to the content as a plain list.
-/
import PinBridge.Wire.Bytes
import PinBridge.Text.Record

namespace PinBridge

/-- A message that does not fit. -/
structure QueueFull where
  needed : Nat
  available : Nat
  deriving DecidableEq, Repr

namespace QueueFull

def message (e : QueueFull) : String :=
  s!"outgoing queue full ({e.needed} bytes needed, {e.available} available)"

end QueueFull

/-- Bytes that wait to be sent, first in first out. -/
structure Queue where
  capacity : Nat
  content : Bytes
  /-- The slot of the first byte. -/
  readIndex : Nat
  deriving DecidableEq, Repr

namespace Queue

/-- The capacity that a session has unless its settings say otherwise. -/
def standardCapacity : Nat := 1024

/-- A queue with nothing in it. -/
def empty (capacity : Nat) : Queue := ⟨capacity, [], 0⟩

def length (q : Queue) : Nat := q.content.length

def isEmpty (q : Queue) : Bool := q.content.isEmpty

/-- How many bytes still fit. -/
def free (q : Queue) : Nat := q.capacity - q.length

/-- The bytes from the first one up to the end of the content or of the ring. -/
def head (q : Queue) : Bytes := q.content.take (q.capacity - q.readIndex)

/-- Append a message, given in two parts, or nothing if it does not fit. -/
def pushParts (header trailer : Bytes) (q : Queue) : Except QueueFull Queue :=
  let needed := header.length + trailer.length
  if q.free < needed then .error ⟨needed, q.free⟩
  else .ok { q with content := q.content ++ header ++ trailer }

/-- Append a message, or nothing if it does not fit. -/
def push (data : Bytes) (q : Queue) : Except QueueFull Queue := q.pushParts data []

/-- How many bytes a `pull` of `n` takes out. -/
def pulled (n : Nat) (q : Queue) : Nat := min n q.length

/-- Take up to `n` bytes out at the front. -/
def pull (n : Nat) (q : Queue) : Queue :=
  let rest := q.content.drop n
  { q with
    content := rest
    readIndex := if rest.isEmpty then 0 else (q.readIndex + q.pulled n) % q.capacity }

/-- Take everything out. -/
def clear (q : Queue) : Queue := { q with content := [], readIndex := 0 }

/-- Take the content out one contiguous head after the other, for at most so many steps. -/
def drainSteps : Nat → Queue → List Bytes × Queue
  | 0, q => ([], q)
  | steps + 1, q =>
    if q.isEmpty then ([], q)
    else
      let (spans, rest) := drainSteps steps (q.pull q.head.length)
      (q.head :: spans, rest)

/-- Take the content out, one contiguous head after the other.  A queue that is not empty has a
head that is not empty, so there are no more steps than bytes. -/
def drain (q : Queue) : List Bytes × Queue := drainSteps q.length q

/-- The queue in a trace. -/
def describe (q : Queue) : String :=
  Text.record "OutgoingQueue" [("len", toString q.length), ("capacity", toString q.capacity)]

/-! ### What the operations do to the content -/

theorem content_pushParts {header trailer : Bytes} {q q' : Queue}
    (h : q.pushParts header trailer = .ok q') :
    q'.content = q.content ++ (header ++ trailer) := by
  simp only [pushParts] at h
  split at h
  · cases h
  · cases h
    exact List.append_assoc _ _ _

theorem content_push {data : Bytes} {q q' : Queue} (h : q.push data = .ok q') :
    q'.content = q.content ++ data := by
  rw [content_pushParts h, List.append_nil]

theorem content_pull (n : Nat) (q : Queue) : (q.pull n).content = q.content.drop n := rfl

/-- The head is the front of the content. -/
theorem head_append (q : Queue) :
    q.head ++ q.content.drop (q.capacity - q.readIndex) = q.content :=
  List.take_append_drop _ _

theorem head_prefix (q : Queue) : q.head <+: q.content := ⟨_, q.head_append⟩

end Queue
end PinBridge
