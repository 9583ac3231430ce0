/-
PinBridge/Proofs/Session/Requests.lean

What a command asks for, and what it is answered with, in tables.

A command that a board with certain limits can carry out (`Valid`) asks for one
action (`deed`).  When it has been carried out, the host is due its bytes, if
they are echoed, and a report, if the command asks for one; for that report the
board is consulted, and answers as it is then.

The echo is put on the queue whole or not at all, and so is the report behind it
(`respond_eq`).

Main statement: `respond_of_valid`, a response to such a command does this and
nothing else, or finds the queue too full.
-/
import PinBridge.Proofs.Session.Echo

namespace PinBridge

/-! ### Commands -/

namespace TwoWay

/-- A board with these limits can carry the message out. -/
def Valid (limits : BoardLimits) : TwoWay → Prop
  | .softReset => True
  | .periodicSampling | .reserved => False
  | .pinDigitalOut pin .. | .changeNotify pin _ | .pinAnalogIn pin => pin < limits.pins
  | .pinDigitalIn pin pull => pin < limits.pins ∧ pull < 3
  | .uartData uart _ => uart < limits.uarts
  | .uartConfig uart _ _ _ parity => uart < limits.uarts ∧ parity < 3
  | .pinUartRx pin uart _ | .pinUartTx pin uart _ => pin < limits.pins ∧ uart < limits.uarts

/-- What the message asks of the board. -/
def deed : TwoWay → Option Action
  | .softReset => some .softReset
  | .pinDigitalOut pin value openDrain => some (.makeOutput pin value openDrain)
  | .pinDigitalIn pin pull => (Pull.ofByte? pull).map (.makeInput pin)
  | .changeNotify pin enabled => some (.watchInput pin enabled)
  | .periodicSampling | .reserved => none
  | .pinAnalogIn pin => some (.makeAnalog pin)
  | .uartData uart data => some (.transmit uart data)
  | .uartConfig uart rate speed4x twoStopBits parity =>
    (Parity.ofByte? parity).map fun parity =>
      .uartConfig uart { rate, speed4x, twoStopBits, parity }
  | .pinUartRx pin uart enable => some (.bindRx pin uart enable)
  | .pinUartTx pin uart enable => some (.bindTx pin uart enable)

end TwoWay

namespace Command

/-- A board with these limits can carry the command out. -/
def Valid (limits : BoardLimits) : Command → Prop
  | .twoWay m => m.Valid limits
  | .hardReset magic => magic = 0x4F494F49
  | .digitalOutLevel pin _ => pin < limits.pins
  | .pinPwm pin pwm => pin < limits.pins ∧ (pwm = 0x0F ∨ pwm < limits.pwms)
  | .pwmDutyCycle pwm .. | .pwmPeriod pwm .. => pwm < limits.pwms

/-- What the command asks of the board; PWM channel 15 stands for none. -/
def deed : Command → Option Action
  | .twoWay m => m.deed
  | .hardReset _ => some .hardReset
  | .digitalOutLevel pin value => some (.setOutput pin value)
  | .pinPwm pin pwm => some (.bindPwm pin (if pwm = 0x0F then none else some pwm))
  | .pwmDutyCycle pwm dutyCycle fraction => some (.setDuty pwm dutyCycle fraction)
  | .pwmPeriod pwm period scale256 => some (.setPeriod pwm period scale256)

end Command

theorem Wire.eq_of_lt_three {b : UInt8} (h : b < 3) : b = 0 ∨ b = 1 ∨ b = 2 := by
  have hb : b.toNat < 3 := UInt8.lt_iff_toNat_lt.1 h
  simp only [← UInt8.toNat_inj]
  show b.toNat = 0 ∨ b.toNat = 1 ∨ b.toNat = 2
  omega

theorem Pull.exists_ofByte? {b : UInt8} (h : b < 3) : ∃ pull, Pull.ofByte? b = some pull := by
  rcases Wire.eq_of_lt_three h with rfl | rfl | rfl
  · exact ⟨.floating, rfl⟩
  · exact ⟨.up, rfl⟩
  · exact ⟨.down, rfl⟩

theorem Parity.exists_ofByte? {b : UInt8} (h : b < 3) :
    ∃ parity, Parity.ofByte? b = some parity := by
  rcases Wire.eq_of_lt_three h with rfl | rfl | rfl
  · exact ⟨.none, rfl⟩
  · exact ⟨.even, rfl⟩
  · exact ⟨.odd, rfl⟩

section Actions

variable {limits : BoardLimits}

/-- A message that can be carried out passes all checks, and is carried out as it says. -/
theorem TwoWay.action_of_valid {m : TwoWay} (h : m.Valid limits) :
    ∃ a, m.deed = some a ∧ m.action limits = .ok a := by
  cases m with
  | softReset => exact ⟨_, rfl, rfl⟩
  | pinDigitalOut pin value openDrain => exact ⟨_, rfl, requireBelow_bind.2 ⟨h, rfl⟩⟩
  | pinDigitalIn pin pull =>
    obtain ⟨hpin, hpull⟩ := h
    obtain ⟨mode, hmode⟩ := Pull.exists_ofByte? hpull
    refine ⟨.makeInput pin mode, congrArg (Option.map _) hmode, requireBelow_bind.2 ⟨hpin, ?_⟩⟩
    exact requireChoice_bind.2 ⟨mode, hmode, rfl⟩
  | changeNotify pin enabled => exact ⟨_, rfl, requireBelow_bind.2 ⟨h, rfl⟩⟩
  | periodicSampling => exact h.elim
  | reserved => exact h.elim
  | pinAnalogIn pin => exact ⟨_, rfl, requireBelow_bind.2 ⟨h, rfl⟩⟩
  | uartData uart data => exact ⟨_, rfl, requireBelow_bind.2 ⟨h, rfl⟩⟩
  | uartConfig uart rate speed4x twoStopBits parity =>
    obtain ⟨huart, hparity⟩ := h
    obtain ⟨mode, hmode⟩ := Parity.exists_ofByte? hparity
    refine ⟨.uartConfig uart ⟨rate, speed4x, twoStopBits, mode⟩, congrArg (Option.map _) hmode,
      requireBelow_bind.2 ⟨huart, ?_⟩⟩
    exact requireChoice_bind.2 ⟨mode, hmode, rfl⟩
  | pinUartRx pin uart enable =>
    exact ⟨_, rfl, requireBelow_bind.2 ⟨h.1, requireBelow_bind.2 ⟨h.2, rfl⟩⟩⟩
  | pinUartTx pin uart enable =>
    exact ⟨_, rfl, requireBelow_bind.2 ⟨h.1, requireBelow_bind.2 ⟨h.2, rfl⟩⟩⟩

/-- A command that can be carried out passes all checks, and is carried out as it says. -/
theorem Command.action_of_valid {command : Command} (h : command.Valid limits) :
    ∃ a, command.deed = some a ∧ command.action limits = .ok a := by
  cases command with
  | twoWay m => exact m.action_of_valid h
  | hardReset magic => exact ⟨_, rfl, if_pos h⟩
  | digitalOutLevel pin value => exact ⟨_, rfl, requireBelow_bind.2 ⟨h, rfl⟩⟩
  | pinPwm pin pwm =>
    obtain ⟨hpin, hpwm⟩ := h
    refine ⟨_, rfl, requireBelow_bind.2 ⟨hpin, ?_⟩⟩
    by_cases hnone : pwm = Wire.noPwm
    · have hfifteen : pwm = 0x0F := hnone
      rw [if_pos hnone, if_pos hfifteen]
      rfl
    · have hother : pwm ≠ 0x0F := hnone
      rw [if_neg hnone, if_neg hother]
      exact requireBelow_bind.2 ⟨hpwm.resolve_left hother, rfl⟩
  | pwmDutyCycle pwm dutyCycle fraction => exact ⟨_, rfl, requireBelow_bind.2 ⟨h, rfl⟩⟩
  | pwmPeriod pwm period scale256 => exact ⟨_, rfl, requireBelow_bind.2 ⟨h, rfl⟩⟩

end Actions

/-! ### Answers -/

/-- The bytes of a report that can be encoded. -/
def Report.image (r : Report) : Bytes := (Direction.outgoing.encode r).toOption.getD []

section Answers

variable {B : Type} [Board B]

/-- The board after it has been consulted for the report, if there is one. -/
def Command.consulted (board : B) : Command → B
  | .twoWay (.changeNotify pin true) => (Board.inputLevel pin board).2
  | .twoWay (.uartConfig uart ..) => (Board.uartBacklog uart board).2
  | _ => board

/-- The bytes that a command is answered with, given the board as it is when the command has been
carried out: the command itself, if it is of a kind that is echoed, and then the report. -/
def Received.due (received : Received .incoming) (board : B) : Bytes :=
  (if received.message.kind ∈ Kind.echoed then received.wire else [])
    ++ (received.message.told board).flatMap Report.image

/-- A command is carried out; with the board comes what the host is due. -/
def Received.serve (received : Received .incoming) (board : B) : B × Bytes :=
  let board := (received.message.deed.map (Board.perform · board)).getD board
  (received.message.consulted board, received.due board)

/-- A backlog that is too large is told as the largest one that can be told. -/
theorem Report.encode_backlog (uart : UInt8) (remaining : UInt16) :
    Direction.outgoing.encode (.uartTxStatus uart (.ofNat (min remaining.toNat 0x3FFF)))
      = Direction.outgoing.encode (.uartTxStatus uart remaining) := by
  have hsame : min (UInt16.ofNat (min remaining.toNat 0x3FFF)).toNat uartRemainingMax
      = min remaining.toNat uartRemainingMax := by
    have hsmall : min remaining.toNat 0x3FFF < 2 ^ 16 := by omega
    have hmax : uartRemainingMax = 0x3FFF := rfl
    rw [UInt16.toNat_ofNat_of_lt' hsmall, hmax]
    omega
  show Layout.encode (.fixed _ _) = Layout.encode (.fixed _ _)
  rw [hsame]

/-- What the board says when it is asked is what is told, and can be encoded. -/
theorem Command.ask_eq (command : Command) (board : B) :
    (command.answer.ask board).2 = command.consulted board ∧
      match (command.answer.ask board).1 with
      | none => command.told board = []
      | some r => ∃ image, Direction.outgoing.encode r = .ok image ∧
          (command.told board).flatMap Report.image = image := by
  cases command with
  | twoWay m =>
    cases m with
    | changeNotify pin enabled =>
      cases enabled with
      | false => exact ⟨rfl, rfl⟩
      | true => exact ⟨rfl, _, rfl, List.flatMap_singleton _ _⟩
    | uartConfig uart rate speed4x twoStopBits parity =>
      refine ⟨rfl, _, rfl, ?_⟩
      show [Report.uartTxStatus uart _].flatMap Report.image = _
      rw [List.flatMap_singleton, Report.image, Report.encode_backlog]
      rfl
    | _ => exact ⟨rfl, rfl⟩
  | _ => exact ⟨rfl, rfl⟩

/-! ### Responses -/

variable {limits : BoardLimits} {command : Command} {wire : Bytes}

/-- The bytes that are echoed. -/
def Command.echoedBytes (command : Command) (wire : Bytes) : Bytes :=
  if command.kind ∈ Kind.echoed then wire else []

/-- The bytes of the report, given the board as it is when the command has been carried out. -/
def Command.reportedBytes (board : B) (command : Command) : Bytes :=
  (command.told board).flatMap Report.image

/-- The echo is put on the queue whole, or not at all. -/
theorem Command.echo_eq (command : Command) (wire : Bytes) (q : Queue) :
    command.echo wire q =
      if q.free < (command.echoedBytes wire).length then
        .error (.queue ⟨(command.echoedBytes wire).length, q.free⟩)
      else .ok (q.extend (command.echoedBytes wire)) := by
  simp only [echo, echoedBytes, ← command.echoed_iff]
  split
  · exact Queue.sendBytes_eq wire q
  · rw [List.length_nil, if_neg (Nat.not_lt_zero _), Queue.extend_nil]

/-- So is the report, for which the board is asked. -/
theorem Command.report_eq (command : Command) (board : B) (queue : Queue) :
    Bench.report command.answer ⟨board, queue⟩ =
      if queue.free < (command.reportedBytes board).length then
        .error (.outgoing (.queue ⟨(command.reportedBytes board).length, queue.free⟩))
          ⟨command.consulted board, queue⟩
      else .ok () ⟨command.consulted board, queue.extend (command.reportedBytes board)⟩ := by
  obtain ⟨hconsulted, htold⟩ := command.ask_eq board
  rw [PinBridge.report_eq, ← hconsulted]
  cases hask : command.answer.ask board with
  | mk told board' =>
    rw [hask] at htold
    cases told with
    | none =>
      dsimp only at htold ⊢
      rw [reportedBytes, htold, List.flatMap_nil, List.length_nil, if_neg (Nat.not_lt_zero _),
        Queue.extend_nil]
    | some r =>
      obtain ⟨image, hencode, himage⟩ := htold
      dsimp only
      rw [Queue.send_eq, hencode, reportedBytes, himage]
      by_cases hfull : queue.free < image.length
      · simp only [if_pos hfull]
      · simp only [if_neg hfull]

/-- A command that is not refused is carried out, and then echoed and reported on as far as the
queue has room. -/
theorem respond_eq {a : Action} (haction : command.action limits = .ok a) (b : Bench B) :
    respond limits command wire b =
      let board := Board.perform a b.board
      let echo := command.echoedBytes wire
      let report := command.reportedBytes board
      if b.queue.free < echo.length then
        .error (.outgoing (.queue ⟨echo.length, b.queue.free⟩)) ⟨board, b.queue⟩
      else if (b.queue.extend echo).free < report.length then
        .error (.outgoing (.queue ⟨report.length, (b.queue.extend echo).free⟩))
          ⟨command.consulted board, b.queue.extend echo⟩
      else .ok () ⟨command.consulted board, b.queue.extend (echo ++ report)⟩ := by
  rw [respond_of_action haction, command.echo_eq]
  dsimp only
  by_cases hfull : b.queue.free < (command.echoedBytes wire).length
  · rw [if_pos hfull, if_pos hfull]
  · rw [if_neg hfull, if_neg hfull, ← Queue.extend_extend]
    exact command.report_eq _ _

variable {received : Received .incoming}

/-- **A response to a command that can be carried out does what is asked and puts on the queue what
is due**, or it finds the queue too full. -/
theorem respond_of_valid (h : received.message.Valid limits) (b : Bench B) :
    respond limits received.message received.wire b
        = .ok () ⟨(received.serve b.board).1, b.queue.extend (received.serve b.board).2⟩ ∨
      ∃ full b', respond limits received.message received.wire b
        = .error (.outgoing (.queue full)) b' := by
  obtain ⟨a, hdeed, haction⟩ := Command.action_of_valid h
  have hserve : received.serve b.board = (received.message.consulted (Board.perform a b.board),
      received.due (Board.perform a b.board)) := by
    rw [Received.serve, hdeed]
    rfl
  rw [hserve, respond_eq haction]
  dsimp only
  split
  · exact .inr ⟨_, _, rfl⟩
  · split
    · exact .inr ⟨_, _, rfl⟩
    · exact .inl rfl

end Answers
end PinBridge
