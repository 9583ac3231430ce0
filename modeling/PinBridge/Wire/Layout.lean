/-
PinBridge/Wire/Layout.lean

How a message lies on the wire, whatever it says: tag, fixed block, trailer.

Three messages carry entries in a trailer.  The fixed block announces their
number in one byte, so it is bounded; a message whose number of entries cannot
be announced is refused.

The bytes of a message are written behind what is in a buffer already.  The tag
is written before the number of entries is looked at, and is taken back if the
message is refused.

Main statements: `encode_eq`, which says what is refused and what is written;
`writeHeader_eq` and `appendTo_eq`, the buffer takes in all of that, or nothing.
-/
import PinBridge.Wire.Kind

namespace PinBridge

/-- A number of trailer entries that the fixed block cannot announce. -/
structure TrailerError where
  length : Nat
  min : Nat
  max : Nat
  deriving DecidableEq, Repr

namespace TrailerError

def message (e : TrailerError) : String :=
  s!"trailer of {e.length} bytes outside {e.min}..={e.max}"

end TrailerError

/-- How many entries a trailer has, and the fewest and the most that can be announced. -/
structure Span where
  count : Nat
  min : Nat
  max : Nat
  deriving DecidableEq, Repr

/-- The parts of a message as they lie on the wire. -/
structure Layout where
  kind : Kind
  block : Bytes
  trailer : Bytes
  /-- Present in the messages that carry a trailer, also when it is empty. -/
  span : Option Span
  deriving DecidableEq, Repr

namespace Layout

/-- A message without a trailer. -/
def fixed (kind : Kind) (block : Bytes) : Layout := ⟨kind, block, [], none⟩

/-- Whether the message carries a trailer. -/
def carriesTrailer (l : Layout) : Bool := l.span.isSome

/-- The number of entries, if it cannot be announced. -/
def trailerError? (l : Layout) : Option TrailerError :=
  l.span.bind fun s =>
    if s.min ≤ s.count ∧ s.count ≤ s.max then none else some ⟨s.count, s.min, s.max⟩

/-- Tag and fixed block. -/
def header (l : Layout) : Except TrailerError Bytes :=
  match l.trailerError? with
  | some e => .error e
  | none => .ok (l.kind.tag :: l.block)

/-- Tag, fixed block and trailer. -/
def encode (l : Layout) : Except TrailerError Bytes :=
  l.header.map (· ++ l.trailer)

/-! ### Writing into a buffer -/

/-- Put bytes behind what is in the buffer. -/
def put (bs : Bytes) : EStateM TrailerError Bytes Unit := modify (· ++ bs)

/-- Write tag and fixed block. -/
def writeHeader (l : Layout) : EStateM TrailerError Bytes Unit := do
  let start := (← get).length
  put [l.kind.tag]
  match l.trailerError? with
  | some e =>
    -- the tag is in the buffer already
    modify (List.take start)
    throw e
  | none => put l.block

def writeTrailer (l : Layout) : EStateM TrailerError Bytes Unit := put l.trailer

/-- Write the whole message. -/
def appendTo (l : Layout) : EStateM TrailerError Bytes Unit := do
  l.writeHeader
  l.writeTrailer

/-! ### What is written -/

/-- A message is refused for its number of entries alone, and else written whole. -/
theorem encode_eq (l : Layout) :
    l.encode = match l.trailerError? with
      | some e => .error e
      | none => .ok (l.kind.tag :: l.block ++ l.trailer) := by
  unfold encode header
  split <;> simp_all [Except.map]

/-- The header is put behind the buffer, or the buffer is left as it was. -/
theorem writeHeader_eq (l : Layout) (buffer : Bytes) :
    l.writeHeader buffer = match l.header with
      | .error e => .error e buffer
      | .ok header => .ok () (buffer ++ header) := by
  unfold writeHeader header
  cases l.trailerError? with
  | some e =>
    show EStateM.Result.error e ((buffer ++ [l.kind.tag]).take buffer.length) = .error e buffer
    rw [List.take_left]
  | none =>
    show EStateM.Result.ok () (buffer ++ [l.kind.tag] ++ l.block) = .ok () _
    rw [List.append_assoc, List.singleton_append]

/-- **The message is put behind the buffer whole**, or the buffer is left as it was. -/
theorem appendTo_eq (l : Layout) (buffer : Bytes) :
    l.appendTo buffer = match l.encode with
      | .error e => .error e buffer
      | .ok image => .ok () (buffer ++ image) := by
  show EStateM.bind l.writeHeader (fun _ => l.writeTrailer) buffer = _
  rw [EStateM.bind, writeHeader_eq, encode]
  cases l.header with
  | error e => rfl
  | ok header => exact congrArg (EStateM.Result.ok ()) (List.append_assoc _ _ _)

end Layout
end PinBridge
