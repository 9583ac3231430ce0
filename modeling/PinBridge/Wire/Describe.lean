/-
PinBridge/Wire/Describe.lean

The text of a message in reports: its variant, its argument record, its fields.
-/
import PinBridge.Wire.Message
import PinBridge.Text.Record

namespace PinBridge

open Text

/-- A variant with an argument record of the same name. -/
def describeArgs (variant : String) (parts : List (String × String)) : String :=
  wrapped variant (record (variant ++ "Args") parts)

/-- A variant that binds a pin to a UART; both ends of the line share one record. -/
def describePinUart (variant : String) (pin uart : UInt8) (enable : Bool) : String :=
  wrapped variant
    (record "SetPinUartArgs"
      [("pin", toString pin), ("uart_num", toString uart), ("enable", toString enable)])

def TwoWay.describe : TwoWay → String
  | .softReset => "SoftReset"
  | .pinDigitalOut pin value openDrain =>
    describeArgs "SetPinDigitalOut"
      [("pin", toString pin), ("value", toString value), ("open_drain", toString openDrain)]
  | .pinDigitalIn pin pull =>
    describeArgs "SetPinDigitalIn" [("pin", toString pin), ("pull", toString pull)]
  | .changeNotify pin enabled =>
    describeArgs "SetChangeNotify" [("pin", toString pin), ("cn", toString enabled)]
  | .periodicSampling => "RegisterPeriodicDigitalSampling"
  | .reserved => "Reserved"
  | .pinAnalogIn pin => describeArgs "SetPinAnalogIn" [("pin", toString pin)]
  | .uartData uart data =>
    describeArgs "UartData" [("uart_num", toString uart), ("data", sequence (data.map toString))]
  | .uartConfig uart rate speed4x twoStopBits parity =>
    describeArgs "UartConfig"
      [("uart_num", toString uart), ("rate", toString rate), ("speed4x", toString speed4x),
        ("two_stop_bits", toString twoStopBits), ("parity", toString parity)]
  | .pinUartRx pin uart enable => describePinUart "SetPinUartRx" pin uart enable
  | .pinUartTx pin uart enable => describePinUart "SetPinUartTx" pin uart enable

def Command.describe : Command → String
  | .twoWay m => m.describe
  | .hardReset magic => describeArgs "HardReset" [("magic", toString magic)]
  | .digitalOutLevel pin value =>
    describeArgs "SetDigitalOutLevel" [("pin", toString pin), ("value", toString value)]
  | .pinPwm pin pwm => describeArgs "SetPinPwm" [("pin", toString pin), ("pwm_num", toString pwm)]
  | .pwmDutyCycle pwm dutyCycle fraction =>
    describeArgs "SetPwmDutyCycle"
      [("pwm_num", toString pwm), ("dc", toString dutyCycle), ("fraction", toString fraction)]
  | .pwmPeriod pwm period scale256 =>
    describeArgs "SetPwmPeriod"
      [("pwm_num", toString pwm), ("period", toString period), ("scale256", toString scale256)]

def Report.describe : Report → String
  | .twoWay m => m.describe
  | .connection magic hardware bootloader firmware =>
    describeArgs "EstablishConnection"
      [("magic", toString magic), ("hardware", toString hardware),
        ("bootloader", toString bootloader), ("firmware", toString firmware)]
  | .digitalInStatus pin level =>
    describeArgs "ReportDigitalInStatus" [("pin", toString pin), ("level", toString level)]
  | .analogInFormat pins =>
    describeArgs "ReportAnalogInFormat" [("pins", sequence (pins.map toString))]
  | .analogInStatus samples =>
    describeArgs "ReportAnalogInStatus" [("samples", sequence (samples.map toString))]
  | .uartTxStatus uart remaining =>
    describeArgs "UartReportTxStatus"
      [("uart_num", toString uart), ("bytes_remaining", toString remaining)]

/-- The text of a message of either direction. -/
def Direction.describe : (d : Direction) → d.Message → String
  | .incoming => Command.describe
  | .outgoing => Report.describe

end PinBridge
