/-
PinBridge/Wire/Report.lean

The messages that the board sends to the host.

Apart from echoes of two-way messages the board announces a connection, tells
the level of a digital input, lists the pins that it samples, tells their
samples, and tells how much a UART has still to send.
-/
import PinBridge.Wire.TwoWay

namespace PinBridge

/-- A message from the board. -/
inductive Report where
  | twoWay (m : TwoWay)
  /-- Opens a session and names the versions of board, bootloader and firmware. -/
  | connection (magic : UInt32) (hardware bootloader : UInt16) (firmware : UInt64)
  | digitalInStatus (pin : UInt8) (level : Bool)
  /-- The pins whose samples follow, in this order, in later `analogInStatus` messages. -/
  | analogInFormat (pins : Bytes)
  | analogInStatus (samples : List UInt16)
  /-- How many bytes wait to be sent; more than fit 14 bits are told as the most that fit. -/
  | uartTxStatus (uart : UInt8) (remaining : UInt16)
  deriving DecidableEq, Repr

namespace Report

open Wire

/-- The most pins or samples that one message holds. -/
def analogMax : Nat := 255

/-- The largest UART backlog that can be told. -/
def uartRemainingMax : Nat := 0x3FFF

def kind : Report → Kind
  | .twoWay m => .twoWay m.kind
  | .connection .. => .oneWay .session
  | .digitalInStatus .. => .oneWay .level
  | .analogInFormat .. => .oneWay .binding
  | .analogInStatus .. => .oneWay .sample
  | .uartTxStatus .. => .oneWay .timing

/-- How the message lies on the wire. -/
def layout : Report → Layout
  | .twoWay m => m.layout
  | .connection magic hardware bootloader firmware =>
    .fixed (.oneWay .session)
      (littleEndian 4 magic.toNat ++ littleEndian 2 hardware.toNat ++
        littleEndian 2 bootloader.toNat ++ littleEndian 8 firmware.toNat)
  | .digitalInStatus pin level => .fixed (.oneWay .level) [placeBit level 0 + place pin 2 6]
  | .analogInFormat pins =>
    { kind := .oneWay .binding
      block := [.ofNat pins.length]
      trailer := pins
      span := some ⟨pins.length, 0, analogMax⟩ }
  | .analogInStatus samples =>
    { kind := .oneWay .sample
      block := [.ofNat samples.length]
      trailer := samples.flatMap fun s => littleEndian 2 s.toNat
      span := some ⟨samples.length, 0, analogMax⟩ }
  | .uartTxStatus uart remaining =>
    .fixed (.oneWay .timing)
      (littleEndian 2 (uart.toNat % 4 + min remaining.toNat uartRemainingMax * 4))

/-- How long a trailer the fixed block announces. -/
def trailerLength : Kind → Bytes → Nat
  | .twoWay k, block => TwoWay.trailerLength k block
  | .oneWay .binding, block => (byteAt block 0).toNat
  | .oneWay .sample, block => (byteAt block 0).toNat * 2
  | .oneWay _, _ => 0

/-- Two-byte numbers one after the other; an odd byte at the end is left out. -/
def samplesOf : Bytes → List UInt16
  | low :: high :: rest => .ofNat (ofLittleEndian [low, high]) :: samplesOf rest
  | _ => []

/-- The message that a fixed block and a trailer hold. -/
def parse : Kind → (block trailer : Bytes) → Report
  | .twoWay k, block, trailer => .twoWay (TwoWay.parse k block trailer)
  | .oneWay .session, block, _ =>
    .connection (word32At block 0) (word16At block 4) (word16At block 6) (word64At block 8)
  | .oneWay .level, block, _ =>
    .digitalInStatus (bits (byteAt block 0) 2 6) (bit (byteAt block 0) 0)
  | .oneWay .binding, _, trailer => .analogInFormat trailer
  | .oneWay .sample, _, trailer => .analogInStatus (samplesOf trailer)
  | .oneWay .timing, block, _ =>
    let word := (word16At block 0).toNat
    .uartTxStatus (.ofNat (word % 4)) (.ofNat (word / 4))

@[simp] theorem kind_parse (k : Kind) (block trailer : Bytes) :
    (parse k block trailer).kind = k := by
  rcases k with k | k
  · simp [parse, kind]
  · cases k <;> rfl

@[simp] theorem kind_layout (r : Report) : r.layout.kind = r.kind := by
  cases r <;> rfl

theorem trailerLength_le (k : Kind) (block : Bytes) :
    trailerLength k block ≤ longestTrailer := by
  have hbyte : (byteAt block 0).toNat < 256 := UInt8.toNat_lt _
  rcases k with k | k
  · exact TwoWay.trailerLength_le k block
  · cases k <;> simp only [trailerLength, longestTrailer] <;> omega

end Report
end PinBridge
