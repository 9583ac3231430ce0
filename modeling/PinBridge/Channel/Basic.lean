/-
PinBridge/Channel/Basic.lean

A channel takes the bytes that the board sends.

Two things are asked of it: to say whether it is ready, and to take a span of
bytes or say why not.  What it does with them is its own affair.
-/
import PinBridge.Wire.Bytes

namespace PinBridge

/-- What can go wrong beneath a channel or a file. -/
inductive SystemFault where
  | brokenPipe
  | wouldBlock
  | timedOut
  | permissionDenied
  | notFound
  | alreadyExists
  | unexpectedEof
  | interrupted
  /-- Any other fault, as the system words it. -/
  | other (text : String)
  deriving DecidableEq, Repr

namespace SystemFault

def text : SystemFault → String
  | .brokenPipe => "broken pipe"
  | .wouldBlock => "operation would block"
  | .timedOut => "timed out"
  | .permissionDenied => "permission denied"
  | .notFound => "entity not found"
  | .alreadyExists => "entity already exists"
  | .unexpectedEof => "unexpected end of file"
  | .interrupted => "operation interrupted"
  | .other text => text

end SystemFault

/-- Why a channel did not take a span. -/
inductive ChannelError where
  | fault (f : SystemFault)
  /-- An earlier span of `pending` bytes is still on its way. -/
  | notReady (pending : Nat)
  | closed
  deriving DecidableEq, Repr

namespace ChannelError

def message : ChannelError → String
  | .fault f => "transport I/O error: " ++ f.text
  | .notReady pending => s!"channel not ready ({pending} bytes still in flight)"
  | .closed => "channel closed"

end ChannelError

/-- A type whose values take spans of bytes. -/
class Channel (C : Type) where
  /-- Whether the previous span is done with and a further one may be written. -/
  ready : C → Bool
  /-- Take a span of bytes. -/
  write : Bytes → EStateM ChannelError C Unit

end PinBridge
