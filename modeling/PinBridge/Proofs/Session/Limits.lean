/-
PinBridge/Proofs/Session/Limits.lean

What a response may call on the board.

A command is carried out only after its fields have been checked, so every pin,
PWM channel and UART in a call is one that the board has (`Call.Within`).  What
else a board may count on comes from the wire: a field is no wider than its
place in a byte, and a trailer is as long as the block announces.  For that an
action has to be traced to the command that asked for it (`Action.Cause`), and
the command to the bytes that it came as (`Received.Genuine.of_kind`).

Main statement: `calls_respond`, a response calls on the board only what the
message allows (`Call.Allowed`).
-/
import PinBridge.Proofs.Session.Boards
import PinBridge.Proofs.Wire.Fields

namespace PinBridge

/-! ### What a call names -/

namespace Action

def pins : Action → List UInt8
  | .makeOutput pin .. | .setOutput pin _ | .makeInput pin _ | .watchInput pin _
  | .bindPwm pin _ | .makeAnalog pin | .bindRx pin .. | .bindTx pin .. => [pin]
  | _ => []

def pwms : Action → List UInt8
  | .bindPwm _ pwm => pwm.toList
  | .setDuty pwm .. | .setPeriod pwm .. => [pwm]
  | _ => []

def uarts : Action → List UInt8
  | .transmit uart _ | .uartConfig uart _ | .bindRx _ uart _ | .bindTx _ uart _ => [uart]
  | _ => []

end Action

namespace Call

def pins : Call → List UInt8
  | .act a => a.pins
  | .inputLevel pin => [pin]
  | _ => []

def pwms : Call → List UInt8
  | .act a => a.pwms
  | _ => []

def uarts : Call → List UInt8
  | .act a => a.uarts
  | .uartBacklog uart => [uart]
  | _ => []

/-- Whatever the call names is there on a board with these limits. -/
structure Within (limits : BoardLimits) (call : Call) : Prop where
  pins : ∀ pin ∈ call.pins, pin < limits.pins
  pwms : ∀ pwm ∈ call.pwms, pwm < limits.pwms
  uarts : ∀ uart ∈ call.uarts, uart < limits.uarts

end Call

/-! ### Checks -/

section Checks

variable {limits : BoardLimits} {field : Field} {value limit : UInt8} {α β : Type}

/-- Past a check that a field is below a limit, the field is below the limit. -/
theorem requireBelow_bind {f : Unit → Except Refusal β} {b : β} :
    (requireBelow field value limit >>= f) = .ok b ↔ value < limit ∧ f () = .ok b := by
  unfold requireBelow
  split
  next hbelow => exact ⟨fun h => ⟨hbelow, h⟩, fun h => h.2⟩
  next habove =>
    refine ⟨fun h => ?_, fun h => absurd h.1 habove⟩
    cases h

/-- Past a check that a field has a meaning, it has the meaning that is passed on. -/
theorem requireChoice_bind {choice : Option α} {f : α → Except Refusal β} {b : β} :
    (requireChoice field value choice >>= f) = .ok b ↔ ∃ a, choice = some a ∧ f a = .ok b := by
  cases choice with
  | none =>
    constructor
    · intro h
      cases h
    · rintro ⟨a, hnone, -⟩
      cases hnone
  | some a =>
    constructor
    · intro h
      exact ⟨a, rfl, h⟩
    · rintro ⟨a', hsome, h⟩
      cases hsome
      exact h

end Checks

/-! ### Actions and the commands that ask for them -/

/-- The command behind an action, where more is said about the action than what it names. -/
def Action.Cause (command : Command) : Action → Prop
  | .hardReset => command = .hardReset Wire.magic
  | .transmit uart data => command = .twoWay (.uartData uart data)
  | .setDuty pwm dutyCycle fraction => command = .pwmDutyCycle pwm dutyCycle fraction
  | .bindPwm pin pwm =>
    ∃ channel, command = .pinPwm pin channel ∧
      pwm = if channel = Wire.noPwm then none else some channel
  | _ => True

section Checked

variable {limits : BoardLimits} {a : Action}

/-- What a two-way message asks for is there, and is what the message says. -/
theorem TwoWay.checked {m : TwoWay} (h : m.action limits = .ok a) :
    (Call.act a).Within limits ∧ a.Cause (.twoWay m) := by
  cases m with
  | softReset =>
    cases h
    exact ⟨⟨List.forall_mem_nil _, List.forall_mem_nil _, List.forall_mem_nil _⟩, trivial⟩
  | pinDigitalOut pin value openDrain =>
    obtain ⟨hpin, ha⟩ := requireBelow_bind.1 h
    cases ha
    exact ⟨⟨List.forall_mem_singleton.2 hpin, List.forall_mem_nil _, List.forall_mem_nil _⟩,
      trivial⟩
  | pinDigitalIn pin pull =>
    obtain ⟨hpin, hrest⟩ := requireBelow_bind.1 h
    obtain ⟨mode, -, ha⟩ := requireChoice_bind.1 hrest
    cases ha
    exact ⟨⟨List.forall_mem_singleton.2 hpin, List.forall_mem_nil _, List.forall_mem_nil _⟩,
      trivial⟩
  | changeNotify pin enabled =>
    obtain ⟨hpin, ha⟩ := requireBelow_bind.1 h
    cases ha
    exact ⟨⟨List.forall_mem_singleton.2 hpin, List.forall_mem_nil _, List.forall_mem_nil _⟩,
      trivial⟩
  | periodicSampling => cases h
  | reserved => cases h
  | pinAnalogIn pin =>
    obtain ⟨hpin, ha⟩ := requireBelow_bind.1 h
    cases ha
    exact ⟨⟨List.forall_mem_singleton.2 hpin, List.forall_mem_nil _, List.forall_mem_nil _⟩,
      trivial⟩
  | uartData uart data =>
    obtain ⟨huart, ha⟩ := requireBelow_bind.1 h
    cases ha
    exact ⟨⟨List.forall_mem_nil _, List.forall_mem_nil _, List.forall_mem_singleton.2 huart⟩, rfl⟩
  | uartConfig uart rate speed4x twoStopBits parity =>
    obtain ⟨huart, hrest⟩ := requireBelow_bind.1 h
    obtain ⟨mode, -, ha⟩ := requireChoice_bind.1 hrest
    cases ha
    exact ⟨⟨List.forall_mem_nil _, List.forall_mem_nil _, List.forall_mem_singleton.2 huart⟩,
      trivial⟩
  | pinUartRx pin uart enable =>
    obtain ⟨hpin, hrest⟩ := requireBelow_bind.1 h
    obtain ⟨huart, ha⟩ := requireBelow_bind.1 hrest
    cases ha
    exact ⟨⟨List.forall_mem_singleton.2 hpin, List.forall_mem_nil _,
      List.forall_mem_singleton.2 huart⟩, trivial⟩
  | pinUartTx pin uart enable =>
    obtain ⟨hpin, hrest⟩ := requireBelow_bind.1 h
    obtain ⟨huart, ha⟩ := requireBelow_bind.1 hrest
    cases ha
    exact ⟨⟨List.forall_mem_singleton.2 hpin, List.forall_mem_nil _,
      List.forall_mem_singleton.2 huart⟩, trivial⟩

/-- What a command asks for is there, and is what the command says. -/
theorem Command.checked {command : Command} (h : command.action limits = .ok a) :
    (Call.act a).Within limits ∧ a.Cause command := by
  cases command with
  | twoWay m => exact m.checked h
  | hardReset magic =>
    simp only [Command.action] at h
    split at h
    next hmagic =>
      cases h
      exact ⟨⟨List.forall_mem_nil _, List.forall_mem_nil _, List.forall_mem_nil _⟩,
        congrArg Command.hardReset hmagic⟩
    · cases h
  | digitalOutLevel pin value =>
    obtain ⟨hpin, ha⟩ := requireBelow_bind.1 h
    cases ha
    exact ⟨⟨List.forall_mem_singleton.2 hpin, List.forall_mem_nil _, List.forall_mem_nil _⟩,
      trivial⟩
  | pinPwm pin channel =>
    obtain ⟨hpin, hrest⟩ := requireBelow_bind.1 h
    split at hrest
    next hnone =>
      cases hrest
      exact ⟨⟨List.forall_mem_singleton.2 hpin, List.forall_mem_nil _, List.forall_mem_nil _⟩,
        channel, rfl, (if_pos hnone).symm⟩
    next hsome =>
      obtain ⟨hpwm, ha⟩ := requireBelow_bind.1 hrest
      cases ha
      exact ⟨⟨List.forall_mem_singleton.2 hpin, List.forall_mem_singleton.2 hpwm,
        List.forall_mem_nil _⟩, channel, rfl, (if_neg hsome).symm⟩
  | pwmDutyCycle pwm dutyCycle fraction =>
    obtain ⟨hpwm, ha⟩ := requireBelow_bind.1 h
    cases ha
    exact ⟨⟨List.forall_mem_nil _, List.forall_mem_singleton.2 hpwm, List.forall_mem_nil _⟩, rfl⟩
  | pwmPeriod pwm period scale256 =>
    obtain ⟨hpwm, ha⟩ := requireBelow_bind.1 h
    cases ha
    exact ⟨⟨List.forall_mem_nil _, List.forall_mem_singleton.2 hpwm, List.forall_mem_nil _⟩,
      trivial⟩

end Checked

/-! ### Commands and the bytes that they came as -/

namespace Received.Genuine

variable {received : Received .incoming}

/-- A command of some kind came as a message of this kind. -/
theorem of_kind (h : received.Genuine) (kind : Kind) (hkind : received.message.kind = kind) :
    ∃ block trailer, block.length = kind.blockLength .incoming ∧
      trailer.length = Command.trailerLength kind block ∧
      received.message = Command.parse kind block trailer ∧
      received.wire = kind.tag :: block ++ trailer := by
  cases h with
  | @intro kind' block trailer hblock htrailer =>
    have hsame : kind' = kind := (Command.kind_parse kind' block trailer).symm.trans hkind
    subst hsame
    exact ⟨block, trailer, hblock, htrailer, rfl, rfl⟩

/-- A hard reset came as its magic number. -/
theorem of_hardReset (h : received.Genuine) {magic : UInt32}
    (hmessage : received.message = .hardReset magic) :
    received.wire = Kind.tag (.oneWay .session) :: Wire.littleEndian 4 magic.toNat := by
  obtain ⟨block, trailer, hblock, htrailer, hparse, hwire⟩ :=
    h.of_kind (.oneWay .session) (by rw [hmessage]; rfl)
  have hmagic : magic = Wire.word32At block 0 := by
    rw [hmessage] at hparse
    exact Command.hardReset.inj hparse
  have hfour : block.length = 4 := hblock
  have hbytes : Wire.littleEndian 4 (Wire.word32At block 0).toNat = block := by
    rw [Wire.littleEndian_word32At (Nat.le_of_eq hfour.symm), Wire.window_whole hfour]
  rw [hwire, hmagic, hbytes, List.length_eq_zero_iff.1 htrailer, List.append_nil]

/-- The data for a UART are what comes behind three bytes, and some. -/
theorem of_uartData (h : received.Genuine) {uart : UInt8} {data : Bytes}
    (hmessage : received.message = .twoWay (.uartData uart data)) :
    data = received.wire.drop 3 ∧ 1 ≤ data.length ∧ data.length ≤ 256 := by
  obtain ⟨block, trailer, hblock, htrailer, hparse, hwire⟩ :=
    h.of_kind (.twoWay .uartData) (by rw [hmessage]; rfl)
  have hdata : data = trailer := by
    rw [hmessage] at hparse
    exact (TwoWay.uartData.inj (Command.twoWay.inj hparse)).2
  have hbyte : (Wire.byteAt block 1).toNat < 256 := UInt8.toNat_lt _
  have hlength : trailer.length = (Wire.byteAt block 1).toNat + 1 := htrailer
  have hheader : (Kind.tag (.twoWay .uartData) :: block).length = 3 := by
    rw [List.length_cons, hblock]
    rfl
  subst hdata
  refine ⟨?_, by omega, by omega⟩
  rw [hwire, ← hheader, List.drop_left]

/-- The channel that a pin is bound to is the low half of the third byte. -/
theorem of_pinPwm (h : received.Genuine) {pin channel : UInt8}
    (hmessage : received.message = .pinPwm pin channel) :
    channel = Wire.bits (Wire.byteAt received.wire 2) 0 4 := by
  obtain ⟨block, trailer, hblock, htrailer, hparse, hwire⟩ :=
    h.of_kind (.oneWay .binding) (by rw [hmessage]; rfl)
  rw [hmessage] at hparse
  have hchannel : channel = Wire.bits (Wire.byteAt block 1) 0 4 := (Command.pinPwm.inj hparse).2
  have hbyte : Wire.byteAt received.wire 2 = Wire.byteAt block 1 := by
    rw [hwire, List.length_eq_zero_iff.1 htrailer, List.append_nil]
    rfl
  rw [hchannel, hbyte]

/-- The fraction of a duty cycle has two bits. -/
theorem of_pwmDutyCycle (h : received.Genuine) {pwm fraction : UInt8} {dutyCycle : UInt16}
    (hmessage : received.message = .pwmDutyCycle pwm dutyCycle fraction) : fraction < 4 := by
  obtain ⟨block, trailer, hblock, htrailer, hparse, hwire⟩ :=
    h.of_kind (.oneWay .sample) (by rw [hmessage]; rfl)
  rw [hmessage] at hparse
  have hfraction : fraction = Wire.bits (Wire.byteAt block 0) 0 2 :=
    (Command.pwmDutyCycle.inj hparse).2.2
  rw [hfraction, UInt8.lt_iff_toNat_lt]
  exact Wire.bits_lt _ 0 (by decide)

end Received.Genuine

/-! ### What a message allows -/

/-- A call that may be made on a board with these limits in response to this message. -/
structure Call.Allowed (limits : BoardLimits) (received : Received .incoming) (call : Call) :
    Prop where
  within : call.Within limits
  hardReset : call = .act .hardReset →
    received.message = .hardReset Wire.magic ∧ received.wire = [0x00, 0x49, 0x4F, 0x49, 0x4F]
  transmit : ∀ uart data, call = .act (.transmit uart data) →
    received.message = .twoWay (.uartData uart data) ∧
      data = received.wire.drop 3 ∧ 1 ≤ data.length ∧ data.length ≤ 256
  setDuty : ∀ pwm dutyCycle fraction, call = .act (.setDuty pwm dutyCycle fraction) → fraction < 4
  /-- A pin is unbound exactly when the channel on the wire is the one that says so. -/
  bindPwm : ∀ pin pwm, call = .act (.bindPwm pin pwm) →
    ∃ channel, received.message = .pinPwm pin channel ∧
      channel = Wire.bits (Wire.byteAt received.wire 2) 0 4 ∧
      pwm = if channel = 0x0F then none else some channel

section Allowed

variable {limits : BoardLimits} {received : Received .incoming} {a : Action}

/-- The action that a message asks for is allowed. -/
theorem allowed_action (h : received.Genuine) (haction : received.message.action limits = .ok a) :
    (Call.act a).Allowed limits received := by
  obtain ⟨hwithin, hcause⟩ := Command.checked haction
  refine ⟨hwithin, fun hcall => ?_, fun uart data hcall => ?_,
    fun pwm dutyCycle fraction hcall => ?_, fun pin pwm hcall => ?_⟩
  · cases hcall
    exact ⟨hcause, h.of_hardReset hcause⟩
  · cases hcall
    exact ⟨hcause, h.of_uartData hcause⟩
  · cases hcall
    exact h.of_pwmDutyCycle hcause
  · cases hcall
    obtain ⟨channel, hmessage, hpwm⟩ := hcause
    exact ⟨channel, hmessage, h.of_pinPwm hmessage, hpwm⟩

/-- What a board is asked in an answer. -/
def Answer.calls : Answer → List Call
  | .none => []
  | .digitalIn pin => [.inputLevel pin]
  | .uartTx uart => [.uartBacklog uart]

/-- A question is allowed if what it names is there. -/
theorem allowed_question {call : Call} (hwithin : call.Within limits)
    (hquestion : ∀ a, call ≠ .act a) : call.Allowed limits received :=
  ⟨hwithin, fun hcall => absurd hcall (hquestion _), fun _ _ hcall => absurd hcall (hquestion _),
    fun _ _ _ hcall => absurd hcall (hquestion _), fun _ _ hcall => absurd hcall (hquestion _)⟩

/-- What the board is asked has been checked before the action. -/
theorem allowed_answer {command : Command} (haction : command.action limits = .ok a) :
    ∀ call ∈ command.answer.calls, call.Allowed limits received := by
  -- two messages ask something, and what they ask about is the first field that is checked
  cases command with
  | twoWay m =>
    cases m with
    | changeNotify pin enabled =>
      cases enabled with
      | false => exact List.forall_mem_nil _
      | true =>
        obtain ⟨hpin, -⟩ := requireBelow_bind.1 haction
        refine List.forall_mem_singleton.2 (allowed_question ?_ ?_)
        · exact ⟨List.forall_mem_singleton.2 hpin, List.forall_mem_nil _, List.forall_mem_nil _⟩
        · exact fun a hcall => Call.noConfusion hcall
    | uartConfig uart rate speed4x twoStopBits parity =>
      obtain ⟨huart, -⟩ := requireBelow_bind.1 haction
      refine List.forall_mem_singleton.2 (allowed_question ?_ ?_)
      · exact ⟨List.forall_mem_nil _, List.forall_mem_nil _, List.forall_mem_singleton.2 huart⟩
      · exact fun a hcall => Call.noConfusion hcall
    | _ => exact List.forall_mem_nil _
  | _ => exact List.forall_mem_nil _

end Allowed

/-! ### What a response calls -/

section Responses

variable {B : Type} [Board B]

/-- Asking is noted down. -/
theorem calls_ask (answer : Answer) (m : Monitored B) :
    (answer.ask m).2.calls = m.calls ++ answer.calls := by
  cases answer with
  | none => exact (List.append_nil _).symm
  | digitalIn pin => rfl
  | uartTx uart => rfl

/-- **A response calls on the board only what the message allows**, however it ends. -/
theorem calls_respond (limits : BoardLimits) {received : Received .incoming}
    (h : received.Genuine) (b : Bench (Monitored B)) :
    ∃ calls : List Call, (∀ call ∈ calls, call.Allowed limits received) ∧
      (stateOf (respond limits received.message received.wire b)).board.calls
        = b.board.calls ++ calls := by
  have hresponded := responded limits received.message received.wire b
  -- a board that has performed an action and was asked has these calls noted
  have hasked : ∀ {a : Action} {told : Option Report} {board : Monitored B},
      received.message.action limits = .ok a →
      received.message.answer.ask (Board.perform a b.board) = (told, board) →
      (∀ call ∈ .act a :: received.message.answer.calls, call.Allowed limits received) ∧
        board.calls = b.board.calls ++ .act a :: received.message.answer.calls := by
    intro a told board haction hask
    refine ⟨List.forall_mem_cons.2 ⟨allowed_action h haction, allowed_answer haction⟩, ?_⟩
    have hcalls := calls_ask received.message.answer (Board.perform a b.board)
    rw [hask] at hcalls
    exact hcalls.trans (List.append_assoc _ [Call.act a] _)
  generalize respond limits received.message received.wire b = result at hresponded ⊢
  cases hresponded with
  | refused haction => exact ⟨[], List.forall_mem_nil _, (List.append_nil _).symm⟩
  | @unechoed a e haction hecho =>
    exact ⟨[.act a], List.forall_mem_singleton.2 (allowed_action h haction), rfl⟩
  | @silent a queue haction hecho hanswer =>
    exact ⟨[.act a], List.forall_mem_singleton.2 (allowed_action h haction), rfl⟩
  | reported haction hecho hask hsend => exact ⟨_, hasked haction hask⟩
  | unreported haction hecho hask hsend => exact ⟨_, hasked haction hask⟩

end Responses
end PinBridge
