/-
PinBridge/Board/Codec.lean

Actions and UART settings as JSON.
-/
import PinBridge.Board.Basic
import PinBridge.Json.Fields

namespace PinBridge

open Json

def Pull.ofJson? : Json → Option Pull :=
  choice? ([Pull.floating, .up, .down].map fun m => (m.name, m))

def Parity.ofJson? : Json → Option Parity :=
  choice? ([Parity.none, .even, .odd].map fun p => (p.name, p))

namespace LineSettings

/-- All four fields must be there. -/
def ofJson? (v : Json) : Option LineSettings := do
  match ← v.fields? ["rate", "speed4x", "two_stop_bits", "parity"] with
  | [rate, speed4x, twoStopBits, parity] =>
    return {
      rate := ← required uint16? rate
      speed4x := ← required bool? speed4x
      twoStopBits := ← required bool? twoStopBits
      parity := ← required Parity.ofJson? parity }
  | _ => none

def toJson (s : LineSettings) : Json :=
  .ofFields
    [("rate", .natural s.rate.toNat),
      ("speed4x", .bool s.speed4x),
      ("two_stop_bits", .bool s.twoStopBits),
      ("parity", .text s.parity.name)]

end LineSettings

namespace Action

/-- The name of an action, and its arguments. -/
def nameAndArgs : Action → String × List (String × Json)
  | .hardReset => ("hard_reset", [])
  | .softReset => ("soft_reset", [])
  | .makeOutput pin value openDrain =>
    ("set_pin_digital_out",
      [("pin", .natural pin.toNat), ("value", .bool value), ("open_drain", .bool openDrain)])
  | .setOutput pin value =>
    ("set_digital_out_level", [("pin", .natural pin.toNat), ("value", .bool value)])
  | .makeInput pin pull =>
    ("set_pin_digital_in", [("pin", .natural pin.toNat), ("pull", .text pull.name)])
  | .watchInput pin enabled =>
    ("set_change_notify", [("pin", .natural pin.toNat), ("enabled", .bool enabled)])
  | .bindPwm pin pwm =>
    ("set_pin_pwm",
      [("pin", .natural pin.toNat), ("pwm", .optional (fun n => .natural n.toNat) pwm)])
  | .setDuty pwm dutyCycle fraction =>
    ("set_pwm_duty_cycle",
      [("pwm", .natural pwm.toNat), ("dc", .natural dutyCycle.toNat),
        ("fraction", .natural fraction.toNat)])
  | .setPeriod pwm period scale256 =>
    ("set_pwm_period",
      [("pwm", .natural pwm.toNat), ("period", .natural period.toNat),
        ("scale256", .bool scale256)])
  | .makeAnalog pin => ("set_pin_analog_in", [("pin", .natural pin.toNat)])
  | .transmit uart data =>
    ("uart_transmit",
      [("uart", .natural uart.toNat), ("data", .array (data.map fun b => .natural b.toNat))])
  | .uartConfig uart settings =>
    ("uart_config", [("uart", .natural uart.toNat), ("settings", settings.toJson)])
  | .bindRx pin uart enable =>
    ("set_pin_uart_rx",
      [("pin", .natural pin.toNat), ("uart", .natural uart.toNat), ("enable", .bool enable)])
  | .bindTx pin uart enable =>
    ("set_pin_uart_tx",
      [("pin", .natural pin.toNat), ("uart", .natural uart.toNat), ("enable", .bool enable)])

/-- An object with the action's name under `call` and its arguments behind it. -/
def toJson (a : Action) : Json :=
  let (name, args) := a.nameAndArgs
  .ofFields (("call", .text name) :: args)

end Action
end PinBridge
