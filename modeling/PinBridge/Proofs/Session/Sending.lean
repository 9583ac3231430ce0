/-
PinBridge/Proofs/Session/Sending.lean

A message is written whole or not at all, and sent whole or not at all.

Whether it is refused depends on the message alone: on the number of its entries
(`Refused`).  If it is not, then its tag, its fixed block and its trailer are put
behind whatever is in the buffer, and they have the lengths that the other side
expects (`Written`).  Header and trailer may also be written one by one, which
comes to the same.

A message that is sent is encoded before the queue is looked at, so it is
refused for itself even if the queue is full.

Main statement: `whole_or_not_at_all`.
-/
import PinBridge.Proofs.Wire.Widths
import PinBridge.Proofs.Session.Events
import PinBridge.Proofs.Session.Response

namespace PinBridge

/-! ### Writing -/

/-- What is refused is told with its bounds. -/
theorem Layout.exists_span {l : Layout} {e : TrailerError} (h : l.trailerError? = some e) :
    ∃ s : Span, l.span = some s ∧ ¬ (s.min ≤ s.count ∧ s.count ≤ s.max) ∧
      e = ⟨s.count, s.min, s.max⟩ := by
  obtain ⟨s, hspan, hs⟩ := Option.bind_eq_some_iff.1 h
  split at hs
  · cases hs
  next hcount =>
    cases hs
    exact ⟨s, hspan, hcount, rfl⟩

namespace Direction

/-- What is said of a message that is refused when it is written. -/
structure Refused (d : Direction) (m : d.Message) (e : TrailerError) : Prop where
  /-- The number of its entries is outside what can be announced, and that is what is told. -/
  span : ∃ s : Span, (d.layout m).span = some s ∧ ¬ (s.min ≤ s.count ∧ s.count ≤ s.max) ∧
    e = ⟨s.count, s.min, s.max⟩
  unannounceable : ¬ d.Announceable m
  /-- The buffer is left as it was. -/
  appendTo : ∀ buffer, (d.layout m).appendTo buffer = .error e buffer
  writeHeader : ∀ buffer, (d.layout m).writeHeader buffer = .error e buffer

/-- What is said of a message that is written as this block and this trailer. -/
structure Written (d : Direction) (m : d.Message) (block trailer : Bytes) : Prop where
  announceable : d.Announceable m
  length_block : block.length = (d.kindOf m).blockLength d
  length_trailer : trailer.length = d.trailerLength (d.kindOf m) block
  /-- It is put behind whatever is in the buffer. -/
  appendTo : ∀ buffer,
    (d.layout m).appendTo buffer = .ok () (buffer ++ ((d.kindOf m).tag :: block ++ trailer))
  /-- So are its parts. -/
  writeHeader : ∀ buffer,
    (d.layout m).writeHeader buffer = .ok () (buffer ++ (d.kindOf m).tag :: block)
  writeTrailer : ∀ buffer, (d.layout m).writeTrailer buffer = .ok () (buffer ++ trailer)

variable {d : Direction} {m : d.Message}

/-- If the number of entries cannot be announced, no byte stays in the buffer. -/
theorem refused_of_trailerError {e : TrailerError} (h : (d.layout m).trailerError? = some e) :
    d.Refused m e := by
  have hheader : (d.layout m).header = .error e := by rw [Layout.header, h]
  refine ⟨Layout.exists_span h, fun hannounceable => ?_, fun buffer => ?_, fun buffer => ?_⟩
  · rw [(trailerError?_eq_none_iff m).2 hannounceable] at h
    cases h
  · rw [Layout.appendTo_eq, Layout.encode, hheader]
    rfl
  · rw [Layout.writeHeader_eq, hheader]

/-- What is not refused is written with the lengths that are announced. -/
theorem written_of_trailerError (h : (d.layout m).trailerError? = none) :
    d.Written m (d.layout m).block (d.layout m).trailer := by
  have hannounceable : d.Announceable m := (trailerError?_eq_none_iff m).1 h
  have hencode : (d.layout m).encode = .ok _ := encode_of_announceable hannounceable
  refine ⟨hannounceable, d.length_block m, length_trailer h, fun buffer => ?_, fun buffer => ?_,
    fun buffer => rfl⟩
  · rw [Layout.appendTo_eq, hencode]
  · rw [Layout.writeHeader_eq, Layout.header, h, d.kind_layout]

end Direction

/-- **Messages are written whole or not at all, and sent whole or not at all.**  A message of either
direction is refused and leaves every buffer as it was, or its tag, fixed block and trailer are put
behind the buffer.  A report that is refused when it is written is not sent, however much of the
queue is free, and one that is longer than what is free is not sent either; then nothing has
changed.  Else it is put on the queue as it is encoded. -/
theorem whole_or_not_at_all :
    (∀ (d : Direction) (m : d.Message),
      match d.encode m with
      | .error e => d.Refused m e
      | .ok image => ∃ block trailer, image = (d.kindOf m).tag :: block ++ trailer ∧
          d.Written m block trailer) ∧
    ∀ {B : Type} (r : Report) (s : Session B),
      Session.enqueue (Queue.send r) s =
        match Direction.outgoing.encode r with
        | .error e => .error (.trailer e) s
        | .ok image =>
          if s.queue.free < image.length then .error (.queue ⟨image.length, s.queue.free⟩) s
          else .ok () { s with queue := s.queue.extend image } := by
  refine ⟨fun d m => ?_, fun r s => ?_⟩
  · cases h : (d.layout m).trailerError? with
    | some e =>
      have hencode : d.encode m = .error e := by rw [Direction.encode, Layout.encode_eq, h]
      rw [hencode]
      exact Direction.refused_of_trailerError h
    | none =>
      rw [Direction.encode_of_announceable ((Direction.trailerError?_eq_none_iff m).1 h)]
      exact ⟨_, _, rfl, Direction.written_of_trailerError h⟩
  · rw [Session.enqueue_eq, Queue.send_eq]
    cases Direction.outgoing.encode r with
    | error e => rfl
    | ok image =>
      by_cases hfull : s.queue.free < image.length
      · simp only [if_pos hfull]
      · simp only [if_neg hfull]

end PinBridge
