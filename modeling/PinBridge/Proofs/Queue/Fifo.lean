/-
PinBridge/Proofs/Queue/Fifo.lean

A queue is a bounded list of bytes, first in first out, kept in a ring of slots.

Three things are compared.  `FifoStep` says what may be answered by a list of
bytes that must not grow beyond a bound: it does not know of slots, and leaves
open how much of the front can be read in one piece.  `SlotRing` keeps bytes in
slots.  `Queue` is what sessions use: the list together with the slot of its
first byte.  It tells apart what a ring tells apart (`Stored`), and nothing
else.

The operations are the same on everything that keeps bytes (`ByteQueue`), so a
run on a ring and a run on a queue can be laid side by side.  A group of
operations is a run of its own, with nothing in between.

Main statement: `answers_of_groups`.
-/
import PinBridge.Proofs.Queue.Content
import PinBridge.Proofs.Queue.Slots

namespace PinBridge

/-! ### Operations and answers -/

/-- A type whose values keep bytes, first in first out. -/
class ByteQueue (Q : Type) where
  pushParts : (header trailer : Bytes) → Q → Except QueueFull Q
  /-- Take up to so many bytes out; the result tells how many there were. -/
  pull : Nat → Q → Nat × Q
  clear : Q → Q
  /-- The bytes at the front that can be read in one piece. -/
  head : Q → Bytes
  length : Q → Nat
  free : Q → Nat
  isEmpty : Q → Bool

instance : ByteQueue Queue where
  pushParts := Queue.pushParts
  pull n q := (q.pulled n, q.pull n)
  clear := Queue.clear
  head := Queue.head
  length := Queue.length
  free := Queue.free
  isEmpty := Queue.isEmpty

instance : ByteQueue SlotRing where
  pushParts := SlotRing.pushParts
  pull n ring := (ring.pulled n, ring.pull n)
  clear := SlotRing.clear
  head := SlotRing.head
  length := SlotRing.count
  free := SlotRing.free
  isEmpty := SlotRing.isEmpty

/-- What may be asked of a queue. -/
inductive QueueOp where
  | push (data : Bytes)
  | pushParts (header trailer : Bytes)
  | pull (n : Nat)
  | head
  | sizes
  | clear
  deriving DecidableEq, Repr

inductive QueueAnswer where
  | done
  | full (e : QueueFull)
  | pulled (n : Nat)
  | head (span : Bytes)
  | sizes (length free : Nat) (isEmpty : Bool)
  deriving DecidableEq, Repr

namespace QueueOp

/-- The two parts of the message that an operation offers, if it offers one. -/
def offered : QueueOp → Option (Bytes × Bytes)
  | .push data => some (data, [])
  | .pushParts header trailer => some (header, trailer)
  | _ => none

variable {Q : Type} [ByteQueue Q]

/-- Offer a message, which is accepted or refused. -/
def offer (header trailer : Bytes) (q : Q) : QueueAnswer × Q :=
  match ByteQueue.pushParts header trailer q with
  | .ok q => (.done, q)
  | .error e => (.full e, q)

def perform : QueueOp → Q → QueueAnswer × Q
  | .push data, q => offer data [] q
  | .pushParts header trailer, q => offer header trailer q
  | .pull n, q => (.pulled (ByteQueue.pull n q).1, (ByteQueue.pull n q).2)
  | .head, q => (.head (ByteQueue.head q), q)
  | .sizes, q => (.sizes (ByteQueue.length q) (ByteQueue.free q) (ByteQueue.isEmpty q), q)
  | .clear, q => (.done, ByteQueue.clear q)

/-- One operation after the other. -/
def performAll : List QueueOp → Q → List QueueAnswer × Q
  | [], q => ([], q)
  | op :: ops, q =>
    let rest := performAll ops (op.perform q).2
    ((op.perform q).1 :: rest.1, rest.2)

/-- One group of operations after the other. -/
def performGroups : List (List QueueOp) → Q → List (List QueueAnswer) × Q
  | [], q => ([], q)
  | ops :: groups, q =>
    let rest := performGroups groups (performAll ops q).2
    ((performAll ops q).1 :: rest.1, rest.2)

theorem performAll_append (first second : List QueueOp) (q : Q) :
    performAll (first ++ second) q
      = ((performAll first q).1 ++ (performAll second (performAll first q).2).1,
        (performAll second (performAll first q).2).2) := by
  induction first generalizing q with
  | nil => rfl
  | cons op first ih => simp only [List.cons_append, performAll, ih]

/-- How operations are grouped does not matter. -/
theorem performGroups_eq (groups : List (List QueueOp)) (q : Q) :
    (performGroups groups q).1.flatten = (performAll groups.flatten q).1 ∧
      (performGroups groups q).2 = (performAll groups.flatten q).2 := by
  induction groups generalizing q with
  | nil => exact ⟨rfl, rfl⟩
  | cons ops groups ih =>
    obtain ⟨hanswers, hlast⟩ := ih (performAll ops q).2
    rw [List.flatten_cons, performAll_append]
    refine ⟨?_, hlast⟩
    rw [← hanswers]
    rfl

end QueueOp

/-! ### A bounded list of bytes -/

/-- What a list of bytes that holds no more than `capacity` may answer, and what becomes of it. -/
inductive FifoStep (capacity : Nat) (content : Bytes) : QueueOp → QueueAnswer → Bytes → Prop
  /-- A message that fits is appended. -/
  | accepted {op : QueueOp} {header trailer : Bytes} (hop : op.offered = some (header, trailer))
      (hfits : content.length + (header ++ trailer).length ≤ capacity) :
      FifoStep capacity content op .done (content ++ (header ++ trailer))
  /-- One that does not fit changes nothing. -/
  | refused {op : QueueOp} {header trailer : Bytes} (hop : op.offered = some (header, trailer))
      (hfull : capacity < content.length + (header ++ trailer).length) :
      FifoStep capacity content op
        (.full ⟨(header ++ trailer).length, capacity - content.length⟩) content
  | pulled (n : Nat) :
      FifoStep capacity content (.pull n) (.pulled (min n content.length)) (content.drop n)
  /-- Of the front so much is shown that something is seen if anything is there. -/
  | head {span : Bytes} (hfront : span <+: content) (hsome : span = [] → content = []) :
      FifoStep capacity content .head (.head span) content
  | sizes :
      FifoStep capacity content .sizes
        (.sizes content.length (capacity - content.length) content.isEmpty) content
  | cleared : FifoStep capacity content .clear .done []

/-- What a bounded list of bytes may answer to operations one after the other. -/
inductive FifoRun (capacity : Nat) : Bytes → List QueueOp → List QueueAnswer → Bytes → Prop
  | nil (content : Bytes) : FifoRun capacity content [] [] content
  | cons {content next last : Bytes} {op : QueueOp} {ops : List QueueOp} {answer : QueueAnswer}
      {answers : List QueueAnswer} (hstep : FifoStep capacity content op answer next)
      (hrest : FifoRun capacity next ops answers last) :
      FifoRun capacity content (op :: ops) (answer :: answers) last

/-! ### What a ring holds -/

/-- The ring holds the content of the queue, from the same slot on. -/
structure Stored (capacity : Nat) (ring : SlotRing) (q : Queue) : Prop where
  sound : ring.Sound
  slots : ring.capacity = capacity
  capacity : q.capacity = capacity
  first : ring.first = q.readIndex
  contents : ring.contents = q.content

namespace Stored

variable {capacity : Nat} {ring : SlotRing} {q : Queue}

theorem empty (capacity : Nat) : Stored capacity (.empty capacity) (.empty capacity) :=
  ⟨SlotRing.sound_empty capacity, SlotRing.capacity_empty capacity, rfl, rfl, rfl⟩

theorem count_eq (h : Stored capacity ring q) : ring.count = q.length := by
  rw [← SlotRing.length_contents, h.contents]
  rfl

theorem length_le (h : Stored capacity ring q) : q.length ≤ capacity := by
  rw [← h.count_eq, ← h.slots]
  exact h.sound.count_le

theorem free_eq (h : Stored capacity ring q) : q.free = capacity - q.content.length := by
  rw [Queue.free, h.capacity]
  rfl

theorem free_ring (h : Stored capacity ring q) : ring.free = q.free := by
  rw [SlotRing.free, h.free_eq, h.slots, h.count_eq]
  rfl

theorem head_ring (h : Stored capacity ring q) : ring.head = q.head := by
  rw [SlotRing.head_eq_take h.sound, h.contents, h.slots, h.first, ← h.capacity]
  rfl

theorem isEmpty_ring (h : Stored capacity ring q) : ring.isEmpty = q.isEmpty := by
  have hcount : ring.count = q.content.length := h.count_eq
  show (ring.count == 0) = q.content.isEmpty
  rw [hcount]
  cases q.content <;> rfl

/-- If anything is there, something can be read in one piece. -/
theorem eq_nil_of_head (h : Stored capacity ring q) (hhead : q.head = []) : q.content = [] := by
  by_contra hcontent
  have hpos : 0 < q.content.length := List.length_pos_iff.2 hcontent
  have hring : q.Ring := by
    have hlength : q.content.length ≤ capacity := h.length_le
    have hfirst := h.sound.first_lt
    have hslots := h.slots
    show q.readIndex < q.capacity
    rw [← h.first, h.capacity]
    omega
  exact hring.head_ne_nil hcontent hhead

/-! #### What the operations keep -/

/-- A message is accepted by both, or refused by both for the same reason. -/
theorem offer (h : Stored capacity ring q) (header trailer : Bytes) :
    (QueueOp.offer header trailer ring).1 = (QueueOp.offer header trailer q).1 ∧
      Stored capacity (QueueOp.offer header trailer ring).2
        (QueueOp.offer header trailer q).2 := by
  have hfree : ring.free = q.free := h.free_ring
  simp only [QueueOp.offer, ByteQueue.pushParts, Queue.pushParts_eq, SlotRing.pushParts, hfree,
    List.length_append]
  by_cases hfull : q.free < header.length + trailer.length
  · simp only [if_pos hfull]
    exact ⟨trivial, h⟩
  · simp only [if_neg hfull]
    -- the two parts fit one after the other
    have hroom : ring.count + (header.length + trailer.length) ≤ ring.capacity := by
      have hcount := h.sound.count_le
      have hspace : ring.capacity - ring.count = q.free := hfree
      omega
    have hheader : ring.count + header.length ≤ ring.capacity := by omega
    have htrailer : (ring.extend header).count + trailer.length
        ≤ (ring.extend header).capacity := by
      rw [SlotRing.count_extend, SlotRing.capacity_extend]
      omega
    refine ⟨trivial, (h.sound.extend hheader).extend htrailer, ?_, h.capacity, ?_, ?_⟩
    · rw [SlotRing.capacity_extend, SlotRing.capacity_extend, h.slots]
    · rw [SlotRing.first_extend, SlotRing.first_extend, h.first]
      rfl
    · rw [SlotRing.contents_extend htrailer, SlotRing.contents_extend hheader, h.contents,
        List.append_assoc]
      rfl

theorem pull (h : Stored capacity ring q) (n : Nat) :
    ring.pulled n = q.pulled n ∧ Stored capacity (ring.pull n) (q.pull n) := by
  have hcount : ring.count = q.content.length := h.count_eq
  have hpulled : ring.pulled n = q.pulled n := by
    rw [SlotRing.pulled, hcount]
    rfl
  refine ⟨hpulled, h.sound.pull n, h.slots, h.capacity, ?_, ?_⟩
  · -- both go back to slot 0 when nothing is left
    have hempty : (q.content.drop n).isEmpty = true ↔ ring.pulled n = ring.count := by
      rw [List.isEmpty_iff, List.drop_eq_nil_iff, SlotRing.pulled, hcount]
      omega
    show (if ring.pulled n = ring.count then 0 else (ring.first + ring.pulled n) % ring.capacity)
      = if (q.content.drop n).isEmpty then 0 else (q.readIndex + q.pulled n) % q.capacity
    rw [h.first, h.slots, h.capacity, hpulled]
    simp only [hempty, hpulled]
  · rw [SlotRing.contents_pull, h.contents]
    rfl

theorem clear (h : Stored capacity ring q) : Stored capacity ring.clear q.clear :=
  ⟨ring.sound_clear, h.slots, h.capacity, rfl, rfl⟩

/-- **A ring and the queue that it holds answer alike**, and go on to do so. -/
theorem perform (h : Stored capacity ring q) (op : QueueOp) :
    (op.perform ring).1 = (op.perform q).1 ∧
      Stored capacity (op.perform ring).2 (op.perform q).2 := by
  cases op with
  | push data => exact h.offer data []
  | pushParts header trailer => exact h.offer header trailer
  | pull n => exact ⟨congrArg QueueAnswer.pulled (h.pull n).1, (h.pull n).2⟩
  | head => exact ⟨congrArg QueueAnswer.head h.head_ring, h⟩
  | sizes =>
    refine ⟨?_, h⟩
    show QueueAnswer.sizes ring.count ring.free ring.isEmpty = .sizes q.length q.free q.isEmpty
    rw [h.count_eq, h.free_ring, h.isEmpty_ring]
  | clear => exact ⟨rfl, h.clear⟩

theorem performAll (h : Stored capacity ring q) (ops : List QueueOp) :
    (QueueOp.performAll ops ring).1 = (QueueOp.performAll ops q).1 ∧
      Stored capacity (QueueOp.performAll ops ring).2 (QueueOp.performAll ops q).2 := by
  induction ops generalizing ring q with
  | nil => exact ⟨rfl, h⟩
  | cons op ops ih =>
    obtain ⟨hanswer, hnext⟩ := h.perform op
    obtain ⟨hanswers, hlast⟩ := ih hnext
    exact ⟨congrArg₂ List.cons hanswer hanswers, hlast⟩

theorem performGroups (h : Stored capacity ring q) (groups : List (List QueueOp)) :
    (QueueOp.performGroups groups ring).1 = (QueueOp.performGroups groups q).1 ∧
      Stored capacity (QueueOp.performGroups groups ring).2
        (QueueOp.performGroups groups q).2 := by
  induction groups generalizing ring q with
  | nil => exact ⟨rfl, h⟩
  | cons ops groups ih =>
    obtain ⟨hanswers, hnext⟩ := h.performAll ops
    obtain ⟨hgroups, hlast⟩ := ih hnext
    exact ⟨congrArg₂ List.cons hanswers hgroups, hlast⟩

/-! #### What the operations answer -/

theorem fifoStep_offer (h : Stored capacity ring q) {op : QueueOp} {header trailer : Bytes}
    (hop : op.offered = some (header, trailer)) :
    FifoStep capacity q.content op (QueueOp.offer header trailer q).1
      (QueueOp.offer header trailer q).2.content := by
  have hlength : q.content.length ≤ capacity := h.length_le
  simp only [QueueOp.offer, ByteQueue.pushParts, Queue.pushParts_eq, h.free_eq]
  by_cases hfull : capacity - q.content.length < (header ++ trailer).length
  · simp only [if_pos hfull]
    exact .refused hop (by omega)
  · simp only [if_neg hfull]
    exact .accepted hop (by omega)

/-- **A queue answers what a bounded list of bytes may answer.** -/
theorem fifoStep (h : Stored capacity ring q) (op : QueueOp) :
    FifoStep capacity q.content op (op.perform q).1 (op.perform q).2.content := by
  cases op with
  | push data => exact h.fifoStep_offer rfl
  | pushParts header trailer => exact h.fifoStep_offer rfl
  | pull n => exact .pulled n
  | head => exact .head q.head_prefix h.eq_nil_of_head
  | sizes =>
    show FifoStep capacity q.content .sizes (.sizes q.length q.free q.isEmpty) q.content
    rw [h.free_eq]
    exact .sizes
  | clear => exact .cleared

theorem fifoRun (h : Stored capacity ring q) (ops : List QueueOp) :
    FifoRun capacity q.content ops (QueueOp.performAll ops q).1
      (QueueOp.performAll ops q).2.content := by
  induction ops generalizing ring q with
  | nil => exact .nil q.content
  | cons op ops ih => exact .cons (h.fifoStep op) (ih (h.perform op).2)

end Stored

/-- **A ring of slots is a bounded list of bytes, first in first out**, and so is a queue.
Whatever is asked of them from the start, in groups or one by one, and with whatever capacity, the
ring and the queue give the same answers, and these are answers of a list that is bounded by the
capacity: a message that fits is appended, one that does not is refused with what it needs and what
there is, and changes nothing; bytes are taken out at the front.  Afterwards the queue tells what is
in the slots: its content, which is no longer than the capacity, from which slot on it lies there,
and how much of it can be read in one piece, which is the front of the content up to the last slot,
and nothing only if the queue is empty. -/
theorem answers_of_groups (capacity : Nat) (groups : List (List QueueOp)) :
    let ring := QueueOp.performGroups groups (SlotRing.empty capacity)
    let queue := QueueOp.performGroups groups (Queue.empty capacity)
    let q := queue.2
    ring.1 = queue.1 ∧
    FifoRun capacity [] groups.flatten queue.1.flatten q.content ∧
    ring.2.contents = q.content ∧ ring.2.first = q.readIndex ∧ ring.2.slots.length = capacity ∧
    q.length ≤ capacity ∧ q.free = capacity - q.length ∧
    ring.2.head = q.head ∧ q.head = q.content.take (min q.length (capacity - q.readIndex)) ∧
    q.head <+: q.content ∧ (q.head = [] → q.content = []) := by
  intro ring queue q
  obtain ⟨hanswers, hstored⟩ := (Stored.empty capacity).performGroups groups
  have hrun : FifoRun capacity [] groups.flatten queue.1.flatten q.content := by
    obtain ⟨hflatten, hlast⟩ := QueueOp.performGroups_eq groups (Queue.empty capacity)
    show FifoRun capacity [] groups.flatten queue.1.flatten queue.2.content
    rw [hflatten, hlast]
    exact (Stored.empty capacity).fifoRun groups.flatten
  have hhead : q.head = q.content.take (min q.length (capacity - q.readIndex)) := by
    rw [Queue.head, hstored.capacity, Queue.length, Nat.min_comm, ← List.take_eq_take_min]
  exact ⟨hanswers, hrun, hstored.contents, hstored.first, hstored.slots, hstored.length_le,
    hstored.free_eq, hstored.head_ring, hhead, q.head_prefix, hstored.eq_nil_of_head⟩

/-- A content that wraps around is read in two pieces. -/
example :
    let ops : List QueueOp :=
      [.push [1, 2, 3], .pull 2, .pushParts [4, 5] [6], .head, .pull 2, .head]
    (QueueOp.performAll ops (SlotRing.empty 4)).1
      = [.done, .pulled 2, .done, .head [3, 4], .pulled 2, .head [5, 6]] := by decide

end PinBridge
