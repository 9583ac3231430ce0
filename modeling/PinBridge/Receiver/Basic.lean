/-
PinBridge/Receiver/Basic.lean

A receiver cuts a stream that arrives in chunks of any size into messages and
hands each to a handler.

A message is received in three parts: its tag, its fixed block and its trailer.
Bytes are copied into a buffer where the cursor stands, as many at once as the
chunk holds and the current part still needs.  Only when the current part is
complete does the receiver turn to the next one, so a chunk may complete many
messages or none; a part of length zero is complete as soon as the part before
it is.

A handler may refuse a message, and a byte may be no tag.  The way of recovery
says what happens then: `abort` stops there, forgets the rest of the chunk and
refuses all input until the receiver is reset; `resync` drops the message or
the byte, counts it, and reads the next byte as a tag.
-/
import PinBridge.Receiver.Buffer
import PinBridge.Wire.Message
import PinBridge.Text.Hex
import PinBridge.Text.Record

namespace PinBridge

/-- A completely received message and the exact bytes it arrived as. -/
structure Received (d : Direction) where
  message : d.Message
  wire : Bytes

/-- The part of a message that is being received. -/
inductive Phase where
  | tag
  | block
  | trailer
  deriving DecidableEq, Repr

namespace Phase

def name : Phase → String
  | .tag => "Type"
  | .block => "Args"
  | .trailer => "VarArgs"

/-- How many parts follow. -/
def partsLeft : Phase → Nat
  | .tag => 2
  | .block => 1
  | .trailer => 0

end Phase

/-- Why a stream cannot be cut into messages. -/
inductive StreamError where
  | unknownTag (tag : UInt8)
  /-- An earlier failure or a hard reset stopped the receiver. -/
  | halted
  deriving DecidableEq, Repr

namespace StreamError

def message : StreamError → String
  | .unknownTag tag => "unknown message type 0x" ++ Text.upperHex 2 tag.toNat
  | .halted => "decoder halted by an earlier failure"

end StreamError

/-- What to do after a byte that is no tag or a message that is refused. -/
inductive Recovery where
  | abort
  | resync
  deriving DecidableEq, Repr

namespace Recovery

def name : Recovery → String
  | .abort => "abort"
  | .resync => "resync"

/-- The name in traces. -/
def describe : Recovery → String
  | .abort => "Abort"
  | .resync => "Resync"

end Recovery

/-- The receiving end of a stream. -/
structure Receiver where
  recovery : Recovery
  phase : Phase
  /-- How many bytes the current part still needs. -/
  remaining : Nat
  /-- How many bytes of the message have arrived, and where the next one goes. -/
  cursor : Nat
  /-- Where the fixed block ends, once it is complete. -/
  blockEnd : Nat
  /-- The kind of the message, once its tag has arrived. -/
  kind : Option Kind
  buffer : Buffer
  halted : Bool
  /-- Messages completed so far, refused ones included. -/
  decoded : Nat
  /-- Messages and stray bytes dropped so far. -/
  dropped : Nat
  deriving DecidableEq, Repr

/-- What to do with a message: it may change a state, or refuse the message with an error. -/
abbrev Handler (d : Direction) (ε σ : Type) := Received d → EStateM ε σ Unit

/-- What a receiver turns to when a part is complete. -/
inductive Turn (d : Direction) where
  /-- The next part of the message. -/
  | onward (r : Receiver)
  | complete (received : Received d)
  /-- The byte stands where a tag is due, and is none. -/
  | unknown (tag : UInt8)

namespace Receiver

/-- A receiver that has seen nothing. -/
def new (recovery : Recovery) : Receiver where
  recovery := recovery
  phase := .tag
  remaining := 1
  cursor := 0
  blockEnd := 0
  kind := none
  buffer := .zeros
  halted := false
  decoded := 0
  dropped := 0

/-- Forget an unfinished message. -/
def restart (r : Receiver) : Receiver :=
  { r with phase := .tag, remaining := 1, cursor := 0, blockEnd := 0, kind := none }

/-- Forget an unfinished message and a halt; the counters stay. -/
def reset (r : Receiver) : Receiver := { r.restart with halted := false }

/-- Forget an unfinished message and refuse input until `reset`. -/
def halt (r : Receiver) : Receiver := { r.restart with halted := true }

/-- Forget an unfinished message, and count it as dropped. -/
def skip (r : Receiver) : Receiver := { r.restart with dropped := r.dropped + 1 }

/-- Count the message as decoded, and make ready for the next one. -/
def complete (r : Receiver) : Receiver := { r.restart with decoded := r.decoded + 1 }

/-- The bytes of the unfinished message. -/
def held (r : Receiver) : Bytes := r.buffer.slice 0 r.cursor

/-- Whether bytes of an unfinished message are held. -/
def isMidway (r : Receiver) : Bool := 0 < r.cursor

/-- The kind of the message under way. -/
def currentKind (r : Receiver) : Kind := r.kind.getD (.twoWay .reserved)

/-- Copy bytes to where the cursor stands. -/
def absorb (r : Receiver) (bs : Bytes) : Receiver :=
  { r with
    buffer := r.buffer.write r.cursor bs
    cursor := r.cursor + bs.length
    remaining := r.remaining - bs.length }

/-- The current part is complete: turn to what follows it. -/
def turn (d : Direction) (r : Receiver) : Turn d :=
  match r.phase with
  | .tag =>
    match Kind.ofTag? (r.buffer.cellAt 0) with
    | none => .unknown (r.buffer.cellAt 0)
    | some kind =>
      .onward { r with kind := some kind, phase := .block, remaining := kind.blockLength d }
  | .block =>
    .onward { r with
      blockEnd := r.cursor
      phase := .trailer
      remaining := d.trailerLength r.currentKind (r.buffer.slice 1 r.cursor) }
  | .trailer =>
    .complete {
      message := d.parse r.currentKind (r.buffer.slice 1 r.blockEnd)
        (r.buffer.slice r.blockEnd r.cursor)
      wire := r.held }

/-- A turn goes on in the order of the parts. -/
theorem partsLeft_of_turn {d : Direction} {r r' : Receiver} (h : r.turn d = .onward r') :
    r'.phase.partsLeft < r.phase.partsLeft := by
  unfold turn at h
  split at h
  next hphase =>
    split at h
    · cases h
    · cases h
      simp [hphase, Phase.partsLeft]
  next hphase =>
    cases h
    simp [hphase, Phase.partsLeft]
  · cases h

section Feed

variable {d : Direction} {ε σ : Type}

/-- Recover from a failure, or stop. -/
def fail (r : Receiver) (e : ε) (s : σ) : EStateM.Result ε (Receiver × σ) Unit :=
  match r.recovery with
  | .abort => .error e (r.halt, s)
  | .resync => .ok () (r.skip, s)

/-- Make ready for the next message, and hand this one over. -/
def deliver (handle : Handler d ε σ) (received : Received d) (r : Receiver) (s : σ) :
    EStateM.Result ε (Receiver × σ) Unit :=
  match handle received s with
  | .ok () s => .ok () (r.complete, s)
  | .error e s => r.complete.fail e s

/-- Turn from part to part, as long as the current one needs no further byte. -/
def advance (ofStream : StreamError → ε) (handle : Handler d ε σ) (r : Receiver) (s : σ) :
    EStateM.Result ε (Receiver × σ) Unit :=
  if r.remaining = 0 then
    match _hturn : r.turn d with
    | .onward r' => advance ofStream handle r' s
    | .complete received => r.deliver handle received s
    | .unknown tag => r.fail (ofStream (.unknownTag tag)) s
  else .ok () (r, s)
termination_by r.phase.partsLeft
decreasing_by exact partsLeft_of_turn _hturn

/-- Afterwards a further byte is needed. -/
theorem remaining_pos_of_advance {ofStream : StreamError → ε} {handle : Handler d ε σ}
    {r r' : Receiver} {s s' : σ} (h : advance ofStream handle r s = .ok () (r', s')) :
    0 < r'.remaining := by
  fun_induction advance ofStream handle r s with
  | case1 r hzero r₁ hturn ih => exact ih h
  | case2 r hzero received hturn =>
    unfold deliver fail at h
    grind [restart, complete, skip]
  | case3 r hzero tag hturn =>
    unfold fail at h
    grind [restart, skip]
  | case4 r hpos => grind

/-- Take bytes, up to the first failure that stops the receiver. -/
def consume (ofStream : StreamError → ε) (handle : Handler d ε σ) (bs : Bytes) (r : Receiver)
    (s : σ) : EStateM.Result ε (Receiver × σ) Unit :=
  if bs.isEmpty then .ok () (r, s)
  else
    match _hpass : advance ofStream handle (r.absorb (bs.take r.remaining)) s with
    | .ok () (r', s') => consume ofStream handle (bs.drop r.remaining) r' s'
    | .error e stopped => .error e stopped
termination_by 2 * bs.length + (1 - r.remaining)
decreasing_by
  -- only a pass that finds the current part complete takes no byte, and the next one takes some
  have := remaining_pos_of_advance _hpass
  have : bs.length ≠ 0 := by simpa using ‹¬bs.isEmpty = true›
  rw [List.length_drop]
  omega

/-- Take a chunk.  A halted receiver refuses even an empty one. -/
def feed (ofStream : StreamError → ε) (handle : Handler d ε σ) (chunk : Bytes) :
    EStateM ε (Receiver × σ) Unit := fun (r, s) =>
  if r.halted then .error (ofStream .halted) (r, s) else consume ofStream handle chunk r s

variable {ofStream : StreamError → ε} {handle : Handler d ε σ}

theorem feed_of_halted {r : Receiver} (h : r.halted = true) (chunk : Bytes) (s : σ) :
    feed ofStream handle chunk (r, s) = .error (ofStream .halted) (r, s) := by
  simp [feed, h]

theorem feed_of_running {r : Receiver} (h : r.halted = false) (chunk : Bytes) (s : σ) :
    feed ofStream handle chunk (r, s) = consume ofStream handle chunk r s := by
  simp [feed, h]

end Feed

/-! ### Whole streams -/

/-- The messages of a whole stream, or what stops it; an unfinished message at its end is left
out. -/
def messagesOf (d : Direction) (stream : Bytes) : Except StreamError (List d.Message) :=
  let collect : Handler d StreamError (List d.Message) := fun received =>
    modify (received.message :: ·)
  match feed id collect stream (new .abort, []) with
  | .ok _ (_, messages) => .ok messages.reverse
  | .error e _ => .error e

/-- The receiver in a trace. -/
def describe (d : Direction) (r : Receiver) : String :=
  Text.record "MessageDecoder"
    [("direction", "\"" ++ d.name ++ "\""),
      ("phase", r.phase.name),
      ("remaining", toString r.remaining),
      ("cursor", toString r.cursor),
      ("policy", r.recovery.describe),
      ("halted", toString r.halted)]

end Receiver
end PinBridge
