/-
PinBridge/Response.lean

Carrying out a command.

A command is checked as a whole before anything happens: `Command.action` gives
the action that it asks for, or the first field that is out of range.  Then the
action is performed, the command is echoed, and two commands are answered with
a report besides.  An echo or a report that does not fit the queue fails the
command; what was done and queued before stays.
-/
import PinBridge.Outbox
import PinBridge.Board.Basic
import PinBridge.Board.Limits

namespace PinBridge

/-- A field of a command that has a range. -/
inductive Field where
  | pin
  | pwm
  | uart
  | pull
  | parity
  deriving DecidableEq, Repr

namespace Field

def name : Field → String
  | .pin => "pin"
  | .pwm => "pwm"
  | .uart => "uart"
  | .pull => "pull"
  | .parity => "parity"

end Field

/-- Why a command was not carried out in full. -/
inductive Refusal where
  | outOfRange (field : Field) (value limit : UInt8)
  | wrongMagic (magic : UInt32)
  /-- Commands of this kind are not carried out. -/
  | unsupported (kind : Kind)
  /-- The echo or the report could not be queued. -/
  | outgoing (e : LinkError)
  deriving DecidableEq, Repr

/-- A kind as the host names it, with its tag. -/
def Kind.describe (k : Kind) : String :=
  k.name .incoming ++ "(0x" ++ Text.upperHex 2 k.tag.toNat ++ ")"

namespace Refusal

def message : Refusal → String
  | .outOfRange field value limit => s!"{field.name} {value} out of range (limit {limit})"
  | .wrongMagic magic => "bad reset magic 0x" ++ Text.upperHex 8 magic.toNat
  | .unsupported kind => "no handler for " ++ kind.describe
  | .outgoing e => "outgoing message not queued: " ++ e.message

end Refusal

/-! ### Checking a command -/

/-- A field that must be below a limit. -/
def requireBelow (field : Field) (value limit : UInt8) : Except Refusal Unit :=
  if value < limit then .ok () else .error (.outOfRange field value limit)

/-- A field with one of three values. -/
def requireChoice {α : Type} (field : Field) (value : UInt8) (choice : Option α) :
    Except Refusal α :=
  match choice with
  | some a => .ok a
  | none => .error (.outOfRange field value 3)

namespace BoardLimits

def requirePin (limits : BoardLimits) (pin : UInt8) : Except Refusal Unit :=
  requireBelow .pin pin limits.pins

def requirePwm (limits : BoardLimits) (pwm : UInt8) : Except Refusal Unit :=
  requireBelow .pwm pwm limits.pwms

def requireUart (limits : BoardLimits) (uart : UInt8) : Except Refusal Unit :=
  requireBelow .uart uart limits.uarts

end BoardLimits

/-- The action that a two-way message asks of the board. -/
def TwoWay.action (limits : BoardLimits) : TwoWay → Except Refusal Action
  | .softReset => .ok .softReset
  | .pinDigitalOut pin value openDrain => do
    limits.requirePin pin
    return .makeOutput pin value openDrain
  | .pinDigitalIn pin pull => do
    limits.requirePin pin
    let mode ← requireChoice .pull pull (Pull.ofByte? pull)
    return .makeInput pin mode
  | .changeNotify pin enabled => do
    limits.requirePin pin
    return .watchInput pin enabled
  | .periodicSampling => .error (.unsupported (.twoWay .periodicSampling))
  | .reserved => .error (.unsupported (.twoWay .reserved))
  | .pinAnalogIn pin => do
    limits.requirePin pin
    return .makeAnalog pin
  | .uartData uart data => do
    limits.requireUart uart
    return .transmit uart data
  | .uartConfig uart rate speed4x twoStopBits parity => do
    limits.requireUart uart
    let parity ← requireChoice .parity parity (Parity.ofByte? parity)
    return .uartConfig uart { rate, speed4x, twoStopBits, parity }
  | .pinUartRx pin uart enable => do
    limits.requirePin pin
    limits.requireUart uart
    return .bindRx pin uart enable
  | .pinUartTx pin uart enable => do
    limits.requirePin pin
    limits.requireUart uart
    return .bindTx pin uart enable

/-- The action that a command asks of the board, or the first thing that is wrong with it. -/
def Command.action (limits : BoardLimits) : Command → Except Refusal Action
  | .twoWay m => m.action limits
  | .hardReset magic => if magic = Wire.magic then .ok .hardReset else .error (.wrongMagic magic)
  | .digitalOutLevel pin value => do
    limits.requirePin pin
    return .setOutput pin value
  | .pinPwm pin pwm => do
    limits.requirePin pin
    if pwm = Wire.noPwm then
      return .bindPwm pin none
    limits.requirePwm pwm
    return .bindPwm pin (some pwm)
  | .pwmDutyCycle pwm dutyCycle fraction => do
    limits.requirePwm pwm
    return .setDuty pwm dutyCycle fraction
  | .pwmPeriod pwm period scale256 => do
    limits.requirePwm pwm
    return .setPeriod pwm period scale256

/-! ### Answering a command -/

/-- Whether a command is answered by the bytes it came as: two-way messages are, unless they carry
data or have no meaning. -/
def Command.echoed : Command → Bool
  | .twoWay (.uartData ..) | .twoWay .periodicSampling | .twoWay .reserved => false
  | .twoWay _ => true
  | _ => false

/-- What a command is answered with besides its echo. -/
inductive Answer where
  | none
  /-- The level of an input. -/
  | digitalIn (pin : UInt8)
  /-- What a UART has still to send. -/
  | uartTx (uart : UInt8)
  deriving DecidableEq, Repr

def Command.answer : Command → Answer
  | .twoWay (.changeNotify pin true) => .digitalIn pin
  | .twoWay (.uartConfig uart ..) => .uartTx uart
  | _ => .none

/-- What commands act on: the board and the queue of answers. -/
structure Bench (B : Type) where
  board : B
  queue : Queue

namespace Bench

variable {B : Type}

/-- Queue something, or fail with the queue as it was. -/
def enqueue (f : Queue → Except LinkError Queue) : EStateM Refusal (Bench B) Unit := fun b =>
  match f b.queue with
  | .ok queue => .ok () { b with queue }
  | .error e => .error (.outgoing e) b

variable [Board B]

/-- Have the board do something. -/
def perform (a : Action) : EStateM Refusal (Bench B) Unit :=
  modify fun b => { b with board := Board.perform a b.board }

/-- Ask the board and queue what it says. -/
def report : Answer → EStateM Refusal (Bench B) Unit
  | .none => pure ()
  | .digitalIn pin => do
    let (level, board) := Board.inputLevel pin (← get).board
    modify fun b => { b with board }
    enqueue (Queue.sendLevel pin level)
  | .uartTx uart => do
    let (remaining, board) := Board.uartBacklog uart (← get).board
    modify fun b => { b with board }
    enqueue (Queue.sendBacklog uart remaining)

end Bench

/-- Carry out a command that came as the bytes `wire`. -/
def respond {B : Type} [Board B] (limits : BoardLimits) (command : Command) (wire : Bytes) :
    EStateM Refusal (Bench B) Unit := do
  match command.action limits with
  | .error e => throw e
  | .ok action =>
    Bench.perform action
    if command.echoed then
      Bench.enqueue (Queue.sendBytes wire)
    Bench.report command.answer

end PinBridge
