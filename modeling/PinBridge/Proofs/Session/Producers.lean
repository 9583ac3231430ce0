/-
PinBridge/Proofs/Session/Producers.lean

Whoever puts messages on the queue, one at a time.

A sender has a list of messages to send.  A dispatcher carries out commands: it
echoes a command and then, as a second step, sends the report that the command
asks for, so that others may come in between.  In one turn a producer does at
most one thing to the queue, and it keeps track of what it has tried and whether
the queue has taken it (`Try`).

What a turn can do to the queue is said once, in `Put`.

Main statements: `put_turn`, and `Dispatcher.finish_eq`, a dispatcher that is
not interrupted does what `respond` does.
-/
import PinBridge.Proofs.Session.Echo

namespace PinBridge

/-! ### Tries -/

/-- A message that was to be queued, and whether it was. -/
structure Try where
  message : Report
  accepted : Bool
  deriving DecidableEq, Repr

/-- Try to queue a message. -/
def attempt (message : Report) (put : Queue → Except LinkError Queue) (q : Queue) : Queue × Try :=
  match put q with
  | .ok queue => (queue, ⟨message, true⟩)
  | .error _ => (q, ⟨message, false⟩)

/-- What a turn can do to the queue. -/
inductive Put (q : Queue) : Queue → List Try → Prop
  | nothing : Put q q []
  | refused (message : Report) : Put q q [⟨message, false⟩]
  /-- What is queued will be read as the message, with its fields cut to their places. -/
  | accepted {message : Report} {received : Received .outgoing} (hgenuine : received.Genuine)
      (hmessage : received.message = message.narrow) :
      Put q (q.extend received.wire) [⟨message, true⟩]

/-- What a turn does to the queue, told by the messages that can be read then. -/
theorem Put.queued {q q' : Queue} {tries : List Try} (h : Put q q' tries) :
    ∃ record : List (Received .outgoing), (∀ received ∈ record, received.Genuine) ∧
      q' = q.extend (record.flatMap Received.wire) ∧
      record.map Received.message
        = (tries.filter Try.accepted).map fun tried => tried.message.narrow := by
  cases h with
  | nothing => exact ⟨[], List.forall_mem_nil _, q.extend_nil.symm, rfl⟩
  | refused message => exact ⟨[], List.forall_mem_nil _, q.extend_nil.symm, rfl⟩
  | @accepted message received hgenuine hmessage =>
    refine ⟨[received], List.forall_mem_singleton.2 hgenuine, ?_, ?_⟩
    · rw [List.flatMap_singleton]
    · exact congrArg (fun message => [message]) hmessage

theorem put_send (r : Report) (q : Queue) :
    Put q (attempt r (Queue.send r) q).1 [(attempt r (Queue.send r) q).2] := by
  unfold attempt
  cases hsend : q.send r with
  | error e => exact .refused r
  | ok queue =>
    obtain ⟨image, hencode, rfl⟩ := Queue.eq_extend_of_send hsend
    exact .accepted (genuine_of_encode hencode) rfl

theorem put_bytes {received : Received .outgoing} (hgenuine : received.Genuine)
    (hfits : received.message.Fits) (q : Queue) :
    Put q (attempt received.message (Queue.sendBytes received.wire) q).1
      [(attempt received.message (Queue.sendBytes received.wire) q).2] := by
  unfold attempt
  cases hsend : q.sendBytes received.wire with
  | error e => exact .refused received.message
  | ok queue =>
    rw [Queue.eq_extend_of_sendBytes hsend]
    exact .accepted hgenuine ((Report.narrow_eq_iff _).2 hfits).symm

/-! ### Dispatchers -/

/-- A command that came in as a whole message. -/
abbrev WholeCommand := { received : Received .incoming // received.Genuine }

/-- Someone who carries out commands. -/
structure Dispatcher (B : Type) where
  limits : BoardLimits
  recovery : Recovery
  board : B
  /-- The commands that are still to be carried out. -/
  todo : List WholeCommand
  /-- What the command that was carried out last is still to be answered with. -/
  owed : Answer

namespace Dispatcher

variable {B : Type}

/-- After a failure go on with the next command, or stop. -/
def fail (d : Dispatcher B) : Dispatcher B :=
  match d.recovery with
  | .abort => { d with todo := [], owed := .none }
  | .resync => { d with owed := .none }

variable [Board B]

/-- Check a command, have the board do it, and echo it.  Behind a hard reset nothing is carried
out. -/
def carryOut (d : Dispatcher B) (received : Received .incoming) (rest : List WholeCommand)
    (q : Queue) : Dispatcher B × Queue × List Try :=
  let refused : Dispatcher B := { d with todo := rest }
  match received.message.action d.limits with
  | .error _ => (refused.fail, q, [])
  | .ok a =>
    let board := Board.perform a d.board
    let done : Dispatcher B := { d with
      board
      todo := if received.message.endsSession then [] else rest
      owed := received.message.answer }
    match received.echo with
    | [] => (done, q, [])
    | echo :: _ =>
      let (queue, tried) := attempt echo.message (Queue.sendBytes echo.wire) q
      (if tried.accepted then done else { refused with board }.fail, queue, [tried])

/-- Ask the board and send what it says. -/
def report (d : Dispatcher B) (q : Queue) : Dispatcher B × Queue × List Try :=
  match d.owed.ask d.board with
  | (none, board) => ({ d with board, owed := .none }, q, [])
  | (some r, board) =>
    let (queue, tried) := attempt r (Queue.send r) q
    let done : Dispatcher B := { d with board, owed := .none }
    (if tried.accepted then done else done.fail, queue, [tried])

/-- The next thing to do. -/
def turn (d : Dispatcher B) (q : Queue) : Dispatcher B × Queue × List Try :=
  match d.owed, d.todo with
  | .none, [] => (d, q, [])
  | .none, received :: rest => d.carryOut received.1 rest q
  | _, _ => d.report q

/-- Send the report that is owed, if one is. -/
def settle (d : Dispatcher B) (q : Queue) : Dispatcher B × Queue :=
  match d.owed with
  | .none => (d, q)
  | _ => ((d.turn q).1, (d.turn q).2.1)

/-- Carry out a command and answer it, without anybody coming in between. -/
def finish (d : Dispatcher B) (q : Queue) : Dispatcher B × Queue :=
  (d.turn q).1.settle (d.turn q).2.1

end Dispatcher

/-- Whoever puts messages on the queue. -/
inductive Producer (B : Type) where
  /-- Has these messages to send. -/
  | sender (todo : List Report)
  | dispatcher (d : Dispatcher B)

/-- What a producer does next, to the queue and otherwise. -/
def Producer.turn {B : Type} [Board B] : Producer B → Queue → Producer B × Queue × List Try
  | .sender [], q => (.sender [], q, [])
  | .sender (r :: rest), q =>
    let (queue, tried) := attempt r (Queue.send r) q
    (.sender rest, queue, [tried])
  | .dispatcher d, q =>
    let (d, queue, tries) := d.turn q
    (.dispatcher d, queue, tries)

/-! ### Turns -/

/-- A command is echoed by its bytes, as the message of the same name, or not at all. -/
theorem Received.echo_cases (received : Received .incoming) :
    received.echo = [] ∧ received.message.echoed = false ∨
    ∃ m, received.message = .twoWay m ∧ received.echo = [⟨.twoWay m, received.wire⟩] ∧
      received.message.echoed = true := by
  obtain ⟨message, wire⟩ := received
  cases message with
  | twoWay m =>
    have hechoed := Command.echoed_iff (.twoWay m)
    by_cases hkind : Kind.twoWay m.kind ∈ Kind.echoed
    · exact .inr ⟨m, rfl, if_pos hkind, hechoed.2 hkind⟩
    · exact .inl ⟨if_neg hkind, Bool.eq_false_iff.2 fun h => hkind (hechoed.1 h)⟩
  | _ => exact .inl ⟨rfl, rfl⟩

/-- A command without an echo is not answered with a report. -/
theorem Command.answer_of_silent {command : Command} (h : command.echoed = false) :
    command.answer = .none := by
  cases command with
  | twoWay m =>
    cases m with
    | changeNotify pin enabled => cases h
    | uartConfig uart rate speed4x twoStopBits parity => cases h
    | _ => rfl
  | _ => rfl

/-- A command that is echoed does not end the session. -/
theorem Command.endsSession_of_echoed {command : Command} (h : command.echoed = true) :
    command.endsSession = false := by
  cases command with
  | hardReset magic => cases h
  | _ => rfl

namespace Dispatcher

variable {B : Type} [Board B]

theorem put_carryOut (d : Dispatcher B) {received : Received .incoming} (h : received.Genuine)
    (rest : List WholeCommand) (q : Queue) :
    Put q (d.carryOut received rest q).2.1 (d.carryOut received rest q).2.2 := by
  unfold carryOut
  cases received.message.action d.limits with
  | error e => exact .nothing
  | ok a =>
    rcases received.echo_cases with ⟨hecho, -⟩ | ⟨m, hmessage, hecho, -⟩
    · simp only [hecho]
      exact .nothing
    · have hfits : m.Fits := by
        have := h.fits
        rwa [hmessage] at this
      have hgenuine : (⟨.twoWay m, received.wire⟩ : Received .outgoing).Genuine :=
        genuine_echo h _ (hecho ▸ List.mem_singleton.2 rfl)
      simp only [hecho]
      exact put_bytes hgenuine hfits q

theorem put_report (d : Dispatcher B) (q : Queue) :
    Put q (d.report q).2.1 (d.report q).2.2 := by
  unfold report
  split
  · exact .nothing
  next r board hask => exact put_send r q

theorem put_turn (d : Dispatcher B) (q : Queue) : Put q (d.turn q).2.1 (d.turn q).2.2 := by
  unfold turn
  split
  · exact .nothing
  next received rest _ _ => exact d.put_carryOut received.2 rest q
  · exact d.put_report q

omit [Board B] in
theorem owed_fail (d : Dispatcher B) : d.fail.owed = .none := by
  unfold fail
  cases d.recovery <;> rfl

omit [Board B] in
/-- What is owed is forgotten by a failure. -/
theorem fail_owed (d : Dispatcher B) (owed : Answer) : { d with owed }.fail = d.fail := by
  unfold fail
  cases d.recovery <;> rfl

theorem settle_of_none {d : Dispatcher B} (h : d.owed = .none) (q : Queue) :
    d.settle q = (d, q) := by
  unfold settle
  rw [h]

/-- Sending what is owed is what `respond` does last. -/
theorem settle_eq (d : Dispatcher B) (q : Queue) :
    d.settle q =
      match Bench.report d.owed ⟨d.board, q⟩ with
      | .ok () b => ({ d with board := b.board, owed := .none }, b.queue)
      | .error _ b => ({ d with board := b.board }.fail, b.queue) := by
  have hreport : ∀ owed, d.owed = owed →
      ((d.report q).1, (d.report q).2.1) =
        match Bench.report owed ⟨d.board, q⟩ with
        | .ok () b => ({ d with board := b.board, owed := .none }, b.queue)
        | .error _ b => ({ d with board := b.board }.fail, b.queue) := by
    intro owed howed
    subst howed
    rw [report_eq]
    unfold report attempt
    cases d.owed.ask d.board with
    | mk told board =>
      cases told with
      | none => rfl
      | some r =>
        cases hsend : q.send r with
        | ok queue => simp only [hsend]; rfl
        | error e =>
          simp only [hsend]
          exact Prod.ext (fail_owed { d with board } .none) rfl
  unfold settle turn
  cases howed : d.owed with
  | none =>
    show (d, q) = ({ d with owed := Answer.none }, q)
    rw [← howed]
  | digitalIn pin => exact hreport _ howed
  | uartTx uart => exact hreport _ howed

/-- **A dispatcher that is not interrupted does with a command what `respond` does**, and fails when
that one fails. -/
theorem finish_eq {d : Dispatcher B} {received : WholeCommand} {rest : List WholeCommand}
    (howed : d.owed = .none) (htodo : d.todo = received :: rest) (q : Queue) :
    d.finish q =
      match respond d.limits received.1.message received.1.wire ⟨d.board, q⟩ with
      | .ok () b =>
        ({ d with
            board := b.board
            todo := if received.1.message.endsSession then [] else rest }, b.queue)
      | .error _ b => ({ d with board := b.board, todo := rest }.fail, b.queue) := by
  have hturn : d.turn q = d.carryOut received.1 rest q := by
    unfold turn
    simp only [howed, htodo]
  have hkept : ∀ (board : B) (todo : List WholeCommand),
      ({ d with board, todo, owed := .none } : Dispatcher B) = { d with board, todo } := by
    intro board todo
    rw [← howed]
  unfold finish
  rw [hturn]
  unfold carryOut
  cases haction : received.1.message.action d.limits with
  | error e =>
    rw [respond_of_refused haction]
    exact settle_of_none (owed_fail _) q
  | ok a =>
    rw [respond_of_action haction]
    rcases received.1.echo_cases with ⟨hecho, hsilent⟩ | ⟨m, -, hecho, hechoed⟩
    · -- without an echo there is no report either
      have hanswer : received.1.message.answer = .none := Command.answer_of_silent hsilent
      simp only [hecho, Command.echo, hsilent, hanswer, Bool.false_eq_true, if_false]
      exact (settle_of_none rfl q).trans (Prod.ext (hkept _ _) rfl)
    · have hends : received.1.message.endsSession = false := Command.endsSession_of_echoed hechoed
      simp only [hecho, Command.echo, hechoed, hends, attempt, Bool.false_eq_true, if_false,
        if_true]
      cases hsend : q.sendBytes received.1.wire with
      | error e => exact settle_of_none (owed_fail _) q
      | ok queue =>
        simp only [if_true, settle_eq]
        cases Bench.report received.1.message.answer ⟨Board.perform a d.board, queue⟩ with
        | ok _ b => exact Prod.ext (hkept _ _) rfl
        | error e b => exact Prod.ext (fail_owed { d with board := b.board, todo := rest } _) rfl

end Dispatcher

/-- **In one turn a producer puts at most one message on the queue**, whole or not at all. -/
theorem Producer.put_turn {B : Type} [Board B] (p : Producer B) (q : Queue) :
    Put q (p.turn q).2.1 (p.turn q).2.2 := by
  cases p with
  | sender todo =>
    cases todo with
    | nil => exact .nothing
    | cons r rest => exact put_send r q
  | dispatcher d => exact d.put_turn q

end PinBridge
