/-
PinBridge/Wire/TwoWay.lean

The messages that host and board send in one layout.

The board answers most of these with an echo, the received bytes sent back
unchanged, which the host reads as the board's message of the same kind.  That
works because the layout of a two-way message is written down once, here.

Fields share a byte from the least significant bit up; bits without a name are
written as zero and ignored when read.  Field values are carried as they are:
a value wider than its place is cut when written.
-/
import PinBridge.Wire.Layout

namespace PinBridge

/-- A message that is laid out alike in both directions. -/
inductive TwoWay where
  | softReset
  | pinDigitalOut (pin : UInt8) (value openDrain : Bool)
  /-- The pull is 0 for floating, 1 for up, 2 for down. -/
  | pinDigitalIn (pin pull : UInt8)
  | changeNotify (pin : UInt8) (enabled : Bool)
  | periodicSampling
  | reserved
  | pinAnalogIn (pin : UInt8)
  /-- Between 1 and 256 bytes for, or from, a UART. -/
  | uartData (uart : UInt8) (data : Bytes)
  /-- The parity is 0 for none, 1 for even, 2 for odd. -/
  | uartConfig (uart : UInt8) (rate : UInt16) (speed4x twoStopBits : Bool) (parity : UInt8)
  | pinUartRx (pin uart : UInt8) (enable : Bool)
  | pinUartTx (pin uart : UInt8) (enable : Bool)
  deriving DecidableEq, Repr

namespace TwoWay

open Wire

/-- The fewest bytes that one UART message carries. -/
def uartDataMin : Nat := 1

/-- The most bytes that one UART message carries. -/
def uartDataMax : Nat := 256

def kind : TwoWay → TwoWayKind
  | .softReset => .softReset
  | .pinDigitalOut .. => .pinDigitalOut
  | .pinDigitalIn .. => .pinDigitalIn
  | .changeNotify .. => .changeNotify
  | .periodicSampling => .periodicSampling
  | .reserved => .reserved
  | .pinAnalogIn .. => .pinAnalogIn
  | .uartData .. => .uartData
  | .uartConfig .. => .uartConfig
  | .pinUartRx .. => .pinUartRx
  | .pinUartTx .. => .pinUartTx

/-- The two bytes that bind a pin to a UART. -/
def pinUartBlock (pin uart : UInt8) (enable : Bool) : Bytes :=
  [place pin 0 6, place uart 0 2 + placeBit enable 7]

/-- The fixed block. -/
def block : TwoWay → Bytes
  | .softReset | .periodicSampling | .reserved => []
  | .pinDigitalOut pin value openDrain =>
    [placeBit openDrain 0 + placeBit value 1 + place pin 2 6]
  | .pinDigitalIn pin pull => [place pull 0 2 + place pin 2 6]
  | .changeNotify pin enabled => [placeBit enabled 0 + place pin 2 6]
  | .pinAnalogIn pin => [place pin 0 6]
  | .uartData uart data => [place uart 0 2, .ofNat (data.length - 1)]
  | .uartConfig uart rate speed4x twoStopBits parity =>
    (place parity 0 2 + placeBit twoStopBits 2 + placeBit speed4x 3 + place uart 6 2) ::
      littleEndian 2 rate.toNat
  | .pinUartRx pin uart enable | .pinUartTx pin uart enable => pinUartBlock pin uart enable

/-- How the message lies on the wire. -/
def layout (m : TwoWay) : Layout where
  kind := .twoWay m.kind
  block := m.block
  trailer := match m with
    | .uartData _ data => data
    | _ => []
  span := match m with
    | .uartData _ data => some ⟨data.length, uartDataMin, uartDataMax⟩
    | _ => none

/-- How long a trailer the fixed block announces. -/
def trailerLength (k : TwoWayKind) (block : Bytes) : Nat :=
  match k with
  | .uartData => (byteAt block 1).toNat + 1
  | _ => 0

/-- The message that a fixed block and a trailer hold. -/
def parse (k : TwoWayKind) (block trailer : Bytes) : TwoWay :=
  let b := byteAt block 0
  match k with
  | .softReset => .softReset
  | .pinDigitalOut => .pinDigitalOut (bits b 2 6) (bit b 1) (bit b 0)
  | .pinDigitalIn => .pinDigitalIn (bits b 2 6) (bits b 0 2)
  | .changeNotify => .changeNotify (bits b 2 6) (bit b 0)
  | .periodicSampling => .periodicSampling
  | .reserved => .reserved
  | .pinAnalogIn => .pinAnalogIn (bits b 0 6)
  | .uartData => .uartData (bits b 0 2) trailer
  | .uartConfig =>
    .uartConfig (bits b 6 2) (word16At block 1) (bit b 3) (bit b 2) (bits b 0 2)
  | .pinUartRx =>
    .pinUartRx (bits b 0 6) (bits (byteAt block 1) 0 2) (bit (byteAt block 1) 7)
  | .pinUartTx =>
    .pinUartTx (bits b 0 6) (bits (byteAt block 1) 0 2) (bit (byteAt block 1) 7)

@[simp] theorem kind_parse (k : TwoWayKind) (block trailer : Bytes) :
    (parse k block trailer).kind = k := by
  cases k <;> rfl

@[simp] theorem length_block (m : TwoWay) : m.block.length = m.kind.blockLength := by
  cases m <;> simp [block, kind, TwoWayKind.blockLength, pinUartBlock]

theorem trailerLength_le (k : TwoWayKind) (block : Bytes) :
    trailerLength k block ≤ longestTrailer := by
  have hbyte : (byteAt block 1).toNat < 256 := UInt8.toNat_lt _
  cases k <;> simp only [trailerLength, longestTrailer] <;> omega

end TwoWay
end PinBridge
