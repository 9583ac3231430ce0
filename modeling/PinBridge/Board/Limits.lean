/-
PinBridge/Board/Limits.lean

How many pins, PWM channels and UARTs a board has.
-/
import PinBridge.Text.Record

namespace PinBridge

/-- What commands are checked against; a number is in range if it is below the count. -/
structure BoardLimits where
  pins : UInt8
  pwms : UInt8
  uarts : UInt8
  deriving DecidableEq, Repr

namespace BoardLimits

/-- The board that settings describe unless they say otherwise. -/
def standard : BoardLimits := ⟨48, 9, 4⟩

/-- The limits in a trace. -/
def describe (l : BoardLimits) : String :=
  Text.record "BoardConfig"
    [("num_pins", toString l.pins), ("num_pwms", toString l.pwms),
      ("num_uarts", toString l.uarts)]

end BoardLimits
end PinBridge
