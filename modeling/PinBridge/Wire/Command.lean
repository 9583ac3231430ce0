/-
PinBridge/Wire/Command.lean

The commands that the host sends to the board.
-/
import PinBridge.Wire.TwoWay

namespace PinBridge

/-- A command from the host. -/
inductive Command where
  | twoWay (m : TwoWay)
  /-- Reboots the board, if it carries the right magic number. -/
  | hardReset (magic : UInt32)
  | digitalOutLevel (pin : UInt8) (value : Bool)
  /-- Binds a pin to a PWM channel; channel `Wire.noPwm` unbinds it. -/
  | pinPwm (pin pwm : UInt8)
  | pwmDutyCycle (pwm : UInt8) (dutyCycle : UInt16) (fraction : UInt8)
  | pwmPeriod (pwm : UInt8) (period : UInt16) (scale256 : Bool)
  deriving DecidableEq, Repr

namespace Command

open Wire

def kind : Command → Kind
  | .twoWay m => .twoWay m.kind
  | .hardReset .. => .oneWay .session
  | .digitalOutLevel .. => .oneWay .level
  | .pinPwm .. => .oneWay .binding
  | .pwmDutyCycle .. => .oneWay .sample
  | .pwmPeriod .. => .oneWay .timing

/-- How the command lies on the wire. -/
def layout : Command → Layout
  | .twoWay m => m.layout
  | .hardReset magic => .fixed (.oneWay .session) (littleEndian 4 magic.toNat)
  | .digitalOutLevel pin value =>
    .fixed (.oneWay .level) [placeBit value 0 + place pin 2 6]
  | .pinPwm pin pwm => .fixed (.oneWay .binding) [place pin 0 6, place pwm 0 4]
  | .pwmDutyCycle pwm dutyCycle fraction =>
    .fixed (.oneWay .sample)
      ((place fraction 0 2 + place pwm 2 4) :: littleEndian 2 dutyCycle.toNat)
  | .pwmPeriod pwm period scale256 =>
    .fixed (.oneWay .timing)
      ((placeBit scale256 0 + place pwm 1 4) :: littleEndian 2 period.toNat)

/-- How long a trailer the fixed block announces. -/
def trailerLength : Kind → Bytes → Nat
  | .twoWay k, block => TwoWay.trailerLength k block
  | .oneWay _, _ => 0

/-- The command that a fixed block and a trailer hold. -/
def parse : Kind → (block trailer : Bytes) → Command
  | .twoWay k, block, trailer => .twoWay (TwoWay.parse k block trailer)
  | .oneWay .session, block, _ => .hardReset (word32At block 0)
  | .oneWay .level, block, _ =>
    .digitalOutLevel (bits (byteAt block 0) 2 6) (bit (byteAt block 0) 0)
  | .oneWay .binding, block, _ => .pinPwm (bits (byteAt block 0) 0 6) (bits (byteAt block 1) 0 4)
  | .oneWay .sample, block, _ =>
    .pwmDutyCycle (bits (byteAt block 0) 2 4) (word16At block 1) (bits (byteAt block 0) 0 2)
  | .oneWay .timing, block, _ =>
    .pwmPeriod (bits (byteAt block 0) 1 4) (word16At block 1) (bit (byteAt block 0) 0)

@[simp] theorem kind_parse (k : Kind) (block trailer : Bytes) :
    (parse k block trailer).kind = k := by
  rcases k with k | k
  · simp [parse, kind]
  · cases k <;> rfl

@[simp] theorem kind_layout (c : Command) : c.layout.kind = c.kind := by
  cases c <;> rfl

theorem trailerLength_le (k : Kind) (block : Bytes) :
    trailerLength k block ≤ longestTrailer := by
  rcases k with k | k
  · exact TwoWay.trailerLength_le k block
  · exact Nat.zero_le _

end Command
end PinBridge
