/-
PinBridge/Proofs/Session/Checks.lean

Which commands are refused, what for, and what has happened then.

A field with a range is looked at with its limit, one field after the other in a
fixed order, and the first one that is out of its range is what a command is
refused for (`Command.flaw?`).  A hard reset is refused for its magic number
instead, and two kinds are always refused.  All that comes before anything is
done: a refused command leaves no trace.

One that is not refused is carried out, whatever comes of the answers to it.
The echo may find the queue too full, or the report behind it; either of them is
put on the queue whole or not at all.

Main statement: `respond_checked`.
-/
import PinBridge.Proofs.Session.Requests

namespace PinBridge

/-! ### What is wrong with a command -/

/-- What the values of a field have to be below: there are three pulls and three parities, and the
board has so many of the others. -/
def BoardLimits.limit (limits : BoardLimits) : Field → UInt8
  | .pin => limits.pins
  | .uart => limits.uarts
  | .pwm => limits.pwms
  | .pull | .parity => 3

/-- The fields in the order in which they are looked at. -/
def Field.inOrder : List Field := [.pin, .uart, .pull, .pwm, .parity]

/-- The value of a field, in a message that has it. -/
def TwoWay.field? : TwoWay → Field → Option UInt8
  | .pinDigitalOut pin .., .pin => some pin
  | .pinDigitalIn pin _, .pin => some pin
  | .pinDigitalIn _ pull, .pull => some pull
  | .changeNotify pin _, .pin => some pin
  | .pinAnalogIn pin, .pin => some pin
  | .uartData uart _, .uart => some uart
  | .uartConfig uart .., .uart => some uart
  | .uartConfig _ _ _ _ parity, .parity => some parity
  | .pinUartRx pin _ _, .pin => some pin
  | .pinUartRx _ uart _, .uart => some uart
  | .pinUartTx pin _ _, .pin => some pin
  | .pinUartTx _ uart _, .uart => some uart
  | _, _ => none

/-- A field with its value and its limit. -/
structure Ranged where
  field : Field
  value : UInt8
  limit : UInt8
  deriving DecidableEq, Repr

/-- What is refused, if the field is out of its range. -/
def Ranged.refusal? (r : Ranged) : Option Refusal :=
  if r.value < r.limit then none else some (.outOfRange r.field r.value r.limit)

namespace Command

/-- The value of a field, in a command that has it.  The channel that stands for none is no value
of a PWM field. -/
def field? : Command → Field → Option UInt8
  | .twoWay m, field => m.field? field
  | .digitalOutLevel pin _, .pin => some pin
  | .pinPwm pin _, .pin => some pin
  | .pinPwm _ pwm, .pwm => if pwm = 0x0F then none else some pwm
  | .pwmDutyCycle pwm _ _, .pwm => some pwm
  | .pwmPeriod pwm _ _, .pwm => some pwm
  | _, _ => none

/-- The fields with a range, each with its value and its limit, in the order in which they are
looked at. -/
def ranged (limits : BoardLimits) (command : Command) : List Ranged :=
  Field.inOrder.filterMap fun field =>
    (command.field? field).map fun value => ⟨field, value, limits.limit field⟩

/-- What is wrong with a command whatever the board is like. -/
def unfit? : Command → Option Refusal
  | .hardReset magic => if magic = Wire.magic then none else some (.wrongMagic magic)
  | .twoWay .periodicSampling => some (.unsupported (.twoWay .periodicSampling))
  | .twoWay .reserved => some (.unsupported (.twoWay .reserved))
  | _ => none

/-- What is wrong with a command, for a board with these limits. -/
def flaw? (limits : BoardLimits) (command : Command) : Option Refusal :=
  command.unfit? <|> (command.ranged limits).findSome? Ranged.refusal?

end Command

/-! ### Checks in order -/

section Checks

variable {β : Type} {field : Field} {value limit : UInt8} {rest : List Ranged} {e : Refusal}

/-- The first field that is out of its range is what is refused: it is this one, or one of the
rest. -/
theorem requireBelow_refused {f : Unit → Except Refusal β}
    (h : (⟨field, value, limit⟩ :: rest).findSome? Ranged.refusal? = some e)
    (hrest : rest.findSome? Ranged.refusal? = some e → f () = .error e) :
    (requireBelow field value limit >>= f) = .error e := by
  rw [List.findSome?_cons, Ranged.refusal?] at h
  unfold requireBelow
  by_cases hbelow : value < limit
  · rw [if_pos hbelow] at h ⊢
    exact hrest h
  · rw [if_neg hbelow] at h ⊢
    cases h
    rfl

theorem requireBelow_refused_last {f : Unit → Except Refusal β}
    (h : [(⟨field, value, limit⟩ : Ranged)].findSome? Ranged.refusal? = some e) :
    (requireBelow field value limit >>= f) = .error e := by
  refine requireBelow_refused h fun hnone => ?_
  cases hnone

/-- A field that has to have one of three meanings has to be below three. -/
theorem requireChoice_refused {α : Type} {choice : Option α} {f : α → Except Refusal β}
    (hchoice : ¬ value < 3 → choice = none)
    (h : [(⟨field, value, 3⟩ : Ranged)].findSome? Ranged.refusal? = some e) :
    (requireChoice field value choice >>= f) = .error e := by
  rw [List.findSome?_singleton, Ranged.refusal?] at h
  split at h
  · cases h
  next habove =>
    cases h
    rw [hchoice habove]
    rfl

end Checks

theorem Pull.ofByte?_eq_none {b : UInt8} (h : ¬ b < 3) : Pull.ofByte? b = none := by
  unfold ofByte?
  split
  · exact absurd (by decide) h
  · exact absurd (by decide) h
  · exact absurd (by decide) h
  · rfl

theorem Parity.ofByte?_eq_none {b : UInt8} (h : ¬ b < 3) : Parity.ofByte? b = Option.none := by
  unfold ofByte?
  split
  · exact absurd (by decide) h
  · exact absurd (by decide) h
  · exact absurd (by decide) h
  · rfl

section Flaws

variable {limits : BoardLimits}

/-- A PWM channel is looked at unless it stands for none. -/
theorem Command.flaw?_pinPwm (pin pwm : UInt8) :
    (pinPwm pin pwm).flaw? limits
      = (⟨.pin, pin, limits.pins⟩ :: if pwm = 0x0F then [] else [⟨.pwm, pwm, limits.pwms⟩]
        : List Ranged).findSome? Ranged.refusal? := by
  show ((pinPwm pin pwm).ranged limits).findSome? Ranged.refusal? = _
  by_cases hnone : pwm = 0x0F
  · simp [ranged, Field.inOrder, field?, BoardLimits.limit, hnone]
  · simp [ranged, Field.inOrder, field?, BoardLimits.limit, hnone]

/-- With a hard reset nothing can be wrong but its magic number. -/
theorem Command.flaw?_hardReset (magic : UInt32) :
    (hardReset magic).flaw? limits
      = if magic = Wire.magic then none else some (.wrongMagic magic) := by
  show (ite _ _ _ <|> none) = ite _ _ _
  split <;> rfl

/-- Nothing is wrong with a command exactly if the board can carry it out. -/
theorem Command.flaw?_eq_none_iff (command : Command) :
    command.flaw? limits = none ↔ command.Valid limits := by
  cases command with
  | twoWay m =>
    cases m with
    | softReset => exact iff_of_true rfl trivial
    | periodicSampling | reserved => exact iff_of_false (Option.some_ne_none _) id
    | _ =>
      show (ranged limits _).findSome? Ranged.refusal? = none ↔ _
      simp [ranged, Field.inOrder, field?, TwoWay.field?, Valid, TwoWay.Valid, BoardLimits.limit,
        Ranged.refusal?]
  | hardReset magic =>
    rw [flaw?_hardReset]
    show _ ↔ magic = Wire.magic
    by_cases hmagic : magic = Wire.magic
    · rw [if_pos hmagic]
      exact iff_of_true rfl hmagic
    · rw [if_neg hmagic]
      exact iff_of_false (Option.some_ne_none _) hmagic
  | pinPwm pin pwm =>
    rw [flaw?_pinPwm]
    by_cases hnone : pwm = 0x0F
    · simp [Valid, Ranged.refusal?, hnone]
    · simp [Valid, Ranged.refusal?, hnone]
  | _ =>
    show (ranged limits _).findSome? Ranged.refusal? = none ↔ _
    simp [ranged, Field.inOrder, field?, Valid, BoardLimits.limit, Ranged.refusal?]

/-- A message with which something is wrong is refused for it. -/
theorem TwoWay.action_of_flaw {m : TwoWay} {e : Refusal}
    (h : (Command.twoWay m).flaw? limits = some e) : m.action limits = .error e := by
  cases m with
  | softReset => cases h
  | periodicSampling | reserved => exact congrArg Except.error (Option.some.inj h)
  | pinDigitalOut | changeNotify | pinAnalogIn | uartData => exact requireBelow_refused_last h
  | pinDigitalIn =>
    exact requireBelow_refused h fun hrest => requireChoice_refused Pull.ofByte?_eq_none hrest
  | uartConfig =>
    exact requireBelow_refused h fun hrest => requireChoice_refused Parity.ofByte?_eq_none hrest
  | pinUartRx | pinUartTx =>
    exact requireBelow_refused h fun hrest => requireBelow_refused_last hrest

/-- A command with which something is wrong is refused for it. -/
theorem Command.action_of_flaw {command : Command} {e : Refusal}
    (h : command.flaw? limits = some e) : command.action limits = .error e := by
  cases command with
  | twoWay m => exact m.action_of_flaw h
  | hardReset magic =>
    rw [flaw?_hardReset] at h
    split at h
    · cases h
    next hmagic =>
      cases h
      exact if_neg hmagic
  | digitalOutLevel | pwmDutyCycle | pwmPeriod => exact requireBelow_refused_last h
  | pinPwm pin pwm =>
    rw [flaw?_pinPwm] at h
    refine requireBelow_refused h fun hrest => ?_
    split at hrest
    · cases hrest
    next hother =>
      -- the check of the channel is made only past the one of the pin
      have hother' : ¬ pwm = Wire.noPwm := hother
      rw [if_neg hother']
      exact requireBelow_refused_last hrest

end Flaws

/-! ### What has happened -/

/-- A command is refused for what is wrong with it, and not because the queue is too full. -/
def Refusal.OfCheck : Refusal → Prop
  | .outgoing _ => False
  | _ => True

/-- A field that is out of its range is what is wrong. -/
theorem Ranged.outOfRange_of_refusal {fields : List Ranged} {e : Refusal}
    (h : fields.findSome? refusal? = some e) :
    ∃ field value limit, ¬value < limit ∧ e = .outOfRange field value limit := by
  obtain ⟨r, -, hr⟩ := List.exists_of_findSome?_eq_some h
  unfold refusal? at hr
  split at hr
  · cases hr
  next habove =>
    cases hr
    exact ⟨_, _, _, habove, rfl⟩

/-- What can be wrong with a command. -/
theorem Command.flaw_cases {limits : BoardLimits} {command : Command} {e : Refusal}
    (h : command.flaw? limits = some e) :
    (∃ field value limit, ¬value < limit ∧ e = .outOfRange field value limit) ∨
      (∃ magic, magic ≠ Wire.magic ∧ e = .wrongMagic magic) ∨
      ∃ kind, (kind = .twoWay .periodicSampling ∨ kind = .twoWay .reserved) ∧
        e = .unsupported kind := by
  cases command with
  | twoWay m =>
    cases m with
    | periodicSampling =>
      cases h
      exact .inr (.inr ⟨_, .inl rfl, rfl⟩)
    | reserved =>
      cases h
      exact .inr (.inr ⟨_, .inr rfl, rfl⟩)
    | _ => exact .inl (Ranged.outOfRange_of_refusal h)
  | hardReset magic =>
    rw [flaw?_hardReset] at h
    split at h
    · cases h
    next hmagic =>
      cases h
      exact .inr (.inl ⟨_, hmagic, rfl⟩)
  | _ => exact .inl (Ranged.outOfRange_of_refusal h)

theorem Command.ofCheck_of_flaw {limits : BoardLimits} {command : Command} {e : Refusal}
    (h : command.flaw? limits = some e) : e.OfCheck := by
  rcases flaw_cases h with ⟨_, _, _, -, rfl⟩ | ⟨_, -, rfl⟩ | ⟨_, -, rfl⟩
  · trivial
  · trivial
  · trivial

section Responses

variable {B : Type} [Board B] {limits : BoardLimits} {command : Command} {wire : Bytes}

/-- A command that is carried out is not refused for a check. -/
theorem not_ofCheck_of_action {a : Action} (haction : command.action limits = .ok a) (b : Bench B)
    {e : Refusal} (he : errorOf (respond limits command wire b) = some e) : ¬ e.OfCheck := by
  rw [respond_eq haction] at he
  dsimp only at he
  split at he
  · cases he
    exact id
  · split at he
    · cases he
      exact id
    · cases he

/-- **A command is refused for the first thing that is wrong with it, and then nothing has
happened.**  Otherwise the board has been told to do what the command says, once, and all that can
go wrong is that the queue has no room: for the echo, and then the queue is as it was, or for the
report behind it, and then the queue has taken in the echo.  Besides, the board has been asked for
what is to be reported.  A board that is not watched behaves alike. -/
theorem respond_checked (limits : BoardLimits) (command : Command) (wire : Bytes)
    (b : Bench (Monitored B)) :
    let result := respond limits command wire b
    (∀ e : Refusal, errorOf result = some e ∧ e.OfCheck ↔ command.flaw? limits = some e) ∧
      (match command.flaw? limits with
        | some e => result = .error e b
        | none =>
          ∃ a : Action, command.deed = some a ∧
            let board := Board.perform a b.board
            let consulted := command.consulted board
            let echo := command.echoedBytes wire
            let report := command.reportedBytes board
            let echoed := b.queue.extend echo
            board.calls = b.board.calls ++ [.act a] ∧
            consulted.calls = b.board.calls ++ .act a :: command.answer.calls ∧
            result =
              if b.queue.free < echo.length then
                .error (.outgoing (.queue ⟨echo.length, b.queue.free⟩)) ⟨board, b.queue⟩
              else if echoed.free < report.length then
                .error (.outgoing (.queue ⟨report.length, echoed.free⟩)) ⟨consulted, echoed⟩
              else .ok () ⟨consulted, echoed.extend report⟩) ∧
      respond limits command wire (b.onBoard Monitored.board)
        = mapState (Bench.onBoard Monitored.board) result := by
  intro result
  have hunwatched := respond_onBoard Monitored.follows_board limits command wire b
  cases hflaw : command.flaw? limits with
  | some e' =>
    have hresult : result = .error e' b := respond_of_refused (Command.action_of_flaw hflaw) b
    refine ⟨fun e => ?_, hresult, hunwatched⟩
    rw [hresult]
    constructor
    · exact And.left
    · intro h
      cases h
      exact ⟨rfl, Command.ofCheck_of_flaw hflaw⟩
  | none =>
    obtain ⟨a, hdeed, haction⟩ := Command.action_of_valid ((command.flaw?_eq_none_iff).1 hflaw)
    refine ⟨fun e => ?_, ⟨a, hdeed, rfl, ?_, ?_⟩, hunwatched⟩
    · constructor
      · intro h
        exact absurd h.2 (not_ofCheck_of_action haction b h.1)
      · intro h
        cases h
    · -- what is noted down when the board is asked comes behind what was done
      have hcalls := calls_ask command.answer (Board.perform a b.board)
      rw [(command.ask_eq _).1] at hcalls
      exact hcalls.trans (List.append_assoc _ [Call.act a] _)
    · rw [Queue.extend_extend]
      exact respond_eq haction b

end Responses
end PinBridge
