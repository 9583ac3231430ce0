/-
PinBridge/Wire/Message.lean

Messages of either direction under one roof: `d.Message` is a command or a
report, and everything that reads or writes a stream is stated once for both.
-/
import PinBridge.Wire.Command
import PinBridge.Wire.Report

namespace PinBridge
namespace Direction

/-- What travels in a direction. -/
abbrev Message : Direction → Type
  | .incoming => Command
  | .outgoing => Report

def kindOf : (d : Direction) → d.Message → Kind
  | .incoming => Command.kind
  | .outgoing => Report.kind

/-- How a message lies on the wire. -/
def layout : (d : Direction) → d.Message → Layout
  | .incoming => Command.layout
  | .outgoing => Report.layout

/-- How long a trailer the fixed block announces. -/
def trailerLength : Direction → Kind → Bytes → Nat
  | .incoming => Command.trailerLength
  | .outgoing => Report.trailerLength

/-- The message that a fixed block and a trailer hold. -/
def parse : (d : Direction) → Kind → (block trailer : Bytes) → d.Message
  | .incoming => Command.parse
  | .outgoing => Report.parse

/-- The bytes of a message. -/
def encode (d : Direction) (m : d.Message) : Except TrailerError Bytes := (d.layout m).encode

/-- A parsed message is of the kind that it was parsed as. -/
@[simp] theorem kindOf_parse (d : Direction) (k : Kind) (block trailer : Bytes) :
    d.kindOf (d.parse k block trailer) = k := by
  cases d
  · exact Command.kind_parse k block trailer
  · exact Report.kind_parse k block trailer

/-- A message lies on the wire under the tag of its kind. -/
@[simp] theorem kind_layout (d : Direction) (m : d.Message) : (d.layout m).kind = d.kindOf m := by
  cases d
  · exact Command.kind_layout m
  · exact Report.kind_layout m

/-- No fixed block announces a trailer longer than the longest one. -/
theorem trailerLength_le (d : Direction) (k : Kind) (block : Bytes) :
    d.trailerLength k block ≤ Wire.longestTrailer := by
  cases d
  · exact Command.trailerLength_le k block
  · exact Report.trailerLength_le k block

end Direction
end PinBridge
