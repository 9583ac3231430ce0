/-
PinBridge/Board/Virtual.lean

A board with no hardware behind it.

It records every action, lets the levels of its inputs be set, and keeps an
account of what its UARTs have still to send.  The account is kept in sixteen
bits: the length of what is sent is cut to sixteen bits and then added, the sum
stops at the largest number that fits, and housekeeping takes a fixed number of
bytes off.
-/
import PinBridge.Board.Basic
import PinBridge.Board.Limits

namespace PinBridge

/-- The state of a virtual board. -/
structure VirtualBoard where
  /-- Every action so far, first one first. -/
  actions : List Action
  /-- The level that each input pin reads as. -/
  inputs : List Bool
  /-- What each UART has still to send. -/
  backlogs : List UInt16
  reboots : Nat
  deriving DecidableEq, Repr

namespace VirtualBoard

/-- How many bytes housekeeping takes off each UART's backlog. -/
def drainPerPass : Nat := 16

/-- A board after power-on. -/
def new (limits : BoardLimits) : VirtualBoard :=
  ⟨[], List.replicate limits.pins.toNat false, List.replicate limits.uarts.toNat 0, 0⟩

/-- Set the level that an input reads as; a pin that the board lacks is ignored. -/
def driveInput (pin : UInt8) (level : Bool) (b : VirtualBoard) : VirtualBoard :=
  { b with inputs := b.inputs.set pin.toNat level }

/-- Forget the recorded actions. -/
def forgetActions (b : VirtualBoard) : VirtualBoard := { b with actions := [] }

/-- A backlog after data of this length is added. -/
def addBacklog (length : Nat) (backlog : UInt16) : UInt16 :=
  .ofNat (min 65535 (backlog.toNat + length % 65536))

/-- A backlog after housekeeping. -/
def drainBacklog (backlog : UInt16) : UInt16 := .ofNat (backlog.toNat - drainPerPass)

/-- What an action changes besides the record. -/
def apply (b : VirtualBoard) : Action → VirtualBoard
  | .hardReset => { b with reboots := b.reboots + 1 }
  | .softReset =>
    { b with
      inputs := b.inputs.map fun _ => false
      backlogs := b.backlogs.map fun _ => 0 }
  | .transmit uart data =>
    { b with backlogs := b.backlogs.modify uart.toNat (addBacklog data.length) }
  | _ => b

/-- Do something and record it. -/
def perform (a : Action) (b : VirtualBoard) : VirtualBoard :=
  { b.apply a with actions := b.actions ++ [a] }

/-- The level of an input; a pin that the board lacks reads low. -/
def inputLevel (pin : UInt8) (b : VirtualBoard) : Bool := b.inputs.getD pin.toNat false

/-- The backlog of a UART; one that the board lacks has none. -/
def uartBacklog (uart : UInt8) (b : VirtualBoard) : UInt16 := b.backlogs.getD uart.toNat 0

def housekeeping (b : VirtualBoard) : VirtualBoard :=
  { b with backlogs := b.backlogs.map drainBacklog }

instance : Board VirtualBoard where
  perform := perform
  inputLevel pin b := (b.inputLevel pin, b)
  uartBacklog uart b := (b.uartBacklog uart, b)
  housekeeping := housekeeping

/-- The board in a trace. -/
def describe (b : VirtualBoard) : String :=
  Text.record "SimulatedBoard"
    [("calls", Text.sequence (b.actions.map Action.describe)),
      ("input_levels", Text.sequence (b.inputs.map toString)),
      ("tx_backlog", Text.sequence (b.backlogs.map toString)),
      ("hard_resets", toString b.reboots)]

end VirtualBoard
end PinBridge
