/-
PinBridge/Board/Basic.lean

What a board can be told to do, and what it can be asked.

An `Action` is made only after the fields of a command were checked against the
board's limits, so a board may take its arguments to be in range, and no
action can fail.
-/
import PinBridge.Wire.Bytes
import PinBridge.Text.Record

namespace PinBridge

/-- How an input pin is pulled. -/
inductive Pull where
  | floating
  | up
  | down
  deriving DecidableEq, Repr

namespace Pull

def ofByte? : UInt8 → Option Pull
  | 0 => some .floating
  | 1 => some .up
  | 2 => some .down
  | _ => none

def name : Pull → String
  | .floating => "floating"
  | .up => "up"
  | .down => "down"

/-- The mode in a trace. -/
def describe : Pull → String
  | .floating => "Floating"
  | .up => "Up"
  | .down => "Down"

end Pull

/-- The parity bit of a UART. -/
inductive Parity where
  | none
  | even
  | odd
  deriving DecidableEq, Repr

namespace Parity

def ofByte? : UInt8 → Option Parity
  | 0 => some .none
  | 1 => some .even
  | 2 => some .odd
  | _ => Option.none

def name : Parity → String
  | .none => "none"
  | .even => "even"
  | .odd => "odd"

/-- The parity in a trace. -/
def describe : Parity → String
  | .none => "None"
  | .even => "Even"
  | .odd => "Odd"

end Parity

/-- The line settings of a UART. -/
structure LineSettings where
  /-- The value of the baud rate generator. -/
  rate : UInt16
  speed4x : Bool
  twoStopBits : Bool
  parity : Parity
  deriving DecidableEq, Repr

namespace LineSettings

/-- The settings in a trace. -/
def describe (s : LineSettings) : String :=
  Text.record "UartSettings"
    [("rate", toString s.rate), ("speed4x", toString s.speed4x),
      ("two_stop_bits", toString s.twoStopBits), ("parity", s.parity.describe)]

end LineSettings

/-- Something that a board is told to do. -/
inductive Action where
  | hardReset
  /-- Bring every pin and peripheral back to its state at power-on. -/
  | softReset
  | makeOutput (pin : UInt8) (value openDrain : Bool)
  | setOutput (pin : UInt8) (value : Bool)
  | makeInput (pin : UInt8) (pull : Pull)
  | watchInput (pin : UInt8) (enabled : Bool)
  /-- Bind a pin to a PWM channel, or to none. -/
  | bindPwm (pin : UInt8) (pwm : Option UInt8)
  | setDuty (pwm : UInt8) (dutyCycle : UInt16) (fraction : UInt8)
  | setPeriod (pwm : UInt8) (period : UInt16) (scale256 : Bool)
  | makeAnalog (pin : UInt8)
  | transmit (uart : UInt8) (data : Bytes)
  | uartConfig (uart : UInt8) (settings : LineSettings)
  | bindRx (pin uart : UInt8) (enable : Bool)
  | bindTx (pin uart : UInt8) (enable : Bool)
  deriving DecidableEq, Repr

namespace Action

open Text

/-- The action in a trace. -/
def describe : Action → String
  | .hardReset => "HardReset"
  | .softReset => "SoftReset"
  | .makeOutput pin value openDrain =>
    record "SetPinDigitalOut"
      [("pin", toString pin), ("value", toString value), ("open_drain", toString openDrain)]
  | .setOutput pin value =>
    record "SetDigitalOutLevel" [("pin", toString pin), ("value", toString value)]
  | .makeInput pin pull =>
    record "SetPinDigitalIn" [("pin", toString pin), ("pull", pull.describe)]
  | .watchInput pin enabled =>
    record "SetChangeNotify" [("pin", toString pin), ("enabled", toString enabled)]
  | .bindPwm pin pwm =>
    record "SetPinPwm" [("pin", toString pin), ("pwm", optional (pwm.map toString))]
  | .setDuty pwm dutyCycle fraction =>
    record "SetPwmDutyCycle"
      [("pwm", toString pwm), ("dc", toString dutyCycle), ("fraction", toString fraction)]
  | .setPeriod pwm period scale256 =>
    record "SetPwmPeriod"
      [("pwm", toString pwm), ("period", toString period), ("scale256", toString scale256)]
  | .makeAnalog pin => record "SetPinAnalogIn" [("pin", toString pin)]
  | .transmit uart data =>
    record "UartTransmit" [("uart", toString uart), ("data", sequence (data.map toString))]
  | .uartConfig uart settings =>
    record "UartConfig" [("uart", toString uart), ("settings", settings.describe)]
  | .bindRx pin uart enable =>
    record "SetPinUartRx"
      [("pin", toString pin), ("uart", toString uart), ("enable", toString enable)]
  | .bindTx pin uart enable =>
    record "SetPinUartTx"
      [("pin", toString pin), ("uart", toString uart), ("enable", toString enable)]

end Action

/-- A type whose values are boards. -/
class Board (B : Type) where
  /-- Do something. -/
  perform : Action → B → B
  /-- The level of a digital input. -/
  inputLevel : (pin : UInt8) → B → Bool × B
  /-- How many bytes a UART has still to send. -/
  uartBacklog : (uart : UInt8) → B → UInt16 × B
  /-- The work that UARTs need from time to time. -/
  housekeeping : B → B

end PinBridge
