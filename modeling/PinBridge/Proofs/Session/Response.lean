/-
PinBridge/Proofs/Session/Response.lean

What responding to a command can do.

`Responded` lists the ways in which a response can end: the command is refused
and nothing is done; or it is carried out, and then the echo does not fit, or
nothing else is due, or a report is asked for, which fits or does not.  That is
read off the definition once (`responded`), and everything else follows by
cases.

What a queue takes in is said by equations: `Queue.send_eq` and
`Queue.sendBytes_eq` tell what is refused and what is put behind the content.

Main statement: `queue_respond`, what a response puts on the queue are whole
messages for the host.
-/
import PinBridge.Response
import PinBridge.Proofs.Queue.Content
import PinBridge.Proofs.Wire.Image

namespace PinBridge

/-! ### Queueing -/

namespace Queue

variable {q q' : Queue}

theorem sendBytes_eq (wire : Bytes) (q : Queue) :
    q.sendBytes wire =
      if q.free < wire.length then .error (.queue ⟨wire.length, q.free⟩)
      else .ok (q.extend wire) := by
  rw [sendBytes, push, pushParts_eq, List.append_nil]
  split <;> rfl

/-- A message is refused for its number of entries first, and then for its length. -/
theorem send_eq (r : Report) (q : Queue) :
    q.send r =
      match Direction.outgoing.encode r with
      | .error e => .error (.trailer e)
      | .ok image =>
        if q.free < image.length then .error (.queue ⟨image.length, q.free⟩)
        else .ok (q.extend image) := by
  have hencode : Direction.outgoing.encode r = r.layout.header.map (· ++ r.layout.trailer) := rfl
  rw [send, hencode]
  cases r.layout.header with
  | error e => rfl
  | ok header =>
    show (q.pushParts header r.layout.trailer).mapError LinkError.queue = ite _ _ _
    rw [pushParts_eq]
    split <;> rfl

theorem eq_extend_of_sendBytes {wire : Bytes} (h : q.sendBytes wire = .ok q') :
    q' = q.extend wire := by
  rw [sendBytes_eq] at h
  split at h
  · cases h
  · cases h
    rfl

/-- What is sent is put behind the content as it is encoded. -/
theorem eq_extend_of_send {r : Report} (h : q.send r = .ok q') :
    ∃ image, Direction.outgoing.encode r = .ok image ∧ q' = q.extend image := by
  rw [send_eq] at h
  split at h
  · cases h
  next image hencode =>
    split at h
    · cases h
    · cases h
      exact ⟨image, hencode, rfl⟩

end Queue

/-! ### Responses -/

variable {B : Type}

/-- The queue after a command is echoed, if it is. -/
def Command.echo (command : Command) (wire : Bytes) (q : Queue) : Except LinkError Queue :=
  if command.echoed then q.sendBytes wire else .ok q

/-- Ask the board for what it has to tell, and what it is like afterwards. -/
def Answer.ask [Board B] : Answer → B → Option Report × B
  | .none, board => (Option.none, board)
  | .digitalIn pin, board =>
    let (level, board) := Board.inputLevel pin board
    (some (.digitalInStatus pin level), board)
  | .uartTx uart, board =>
    let (remaining, board) := Board.uartBacklog uart board
    (some (.uartTxStatus uart remaining), board)

/-- What holds of a board, and of what any question makes of it, holds of what an answer makes of
it. -/
theorem Answer.of_ask [Board B] {R : B → Prop} {board : B} (hsame : R board)
    (hlevel : ∀ pin : UInt8, R (Board.inputLevel pin board).2)
    (hbacklog : ∀ uart : UInt8, R (Board.uartBacklog uart board).2) {answer : Answer}
    {told : Option Report} {board' : B} (hask : answer.ask board = (told, board')) : R board' := by
  cases answer with
  | none =>
    cases hask
    exact hsame
  | digitalIn pin =>
    cases hask
    exact hlevel pin
  | uartTx uart =>
    cases hask
    exact hbacklog uart

/-- How a response can end. -/
inductive Responded [Board B] (limits : BoardLimits) (command : Command) (wire : Bytes)
    (b : Bench B) : EStateM.Result Refusal (Bench B) Unit → Prop
  /-- The command is refused, and nothing is done. -/
  | refused {e : Refusal} (haction : command.action limits = .error e) :
      Responded limits command wire b (.error e b)
  /-- The command is carried out, and its echo does not fit. -/
  | unechoed {a : Action} {e : LinkError} (haction : command.action limits = .ok a)
      (hecho : command.echo wire b.queue = .error e) :
      Responded limits command wire b (.error (.outgoing e) ⟨Board.perform a b.board, b.queue⟩)
  /-- Besides the echo nothing is due. -/
  | silent {a : Action} {queue : Queue} (haction : command.action limits = .ok a)
      (hecho : command.echo wire b.queue = .ok queue) (hanswer : command.answer = .none) :
      Responded limits command wire b (.ok () ⟨Board.perform a b.board, queue⟩)
  /-- A report follows. -/
  | reported {a : Action} {queue queue' : Queue} {r : Report} {board : B}
      (haction : command.action limits = .ok a) (hecho : command.echo wire b.queue = .ok queue)
      (hask : command.answer.ask (Board.perform a b.board) = (some r, board))
      (hsend : queue.send r = .ok queue') :
      Responded limits command wire b (.ok () ⟨board, queue'⟩)
  /-- A report is due, and does not fit. -/
  | unreported {a : Action} {queue : Queue} {r : Report} {board : B} {e : LinkError}
      (haction : command.action limits = .ok a) (hecho : command.echo wire b.queue = .ok queue)
      (hask : command.answer.ask (Board.perform a b.board) = (some r, board))
      (hsend : queue.send r = .error e) :
      Responded limits command wire b (.error (.outgoing e) ⟨board, queue⟩)

section Responded

variable [Board B] {limits : BoardLimits} {command : Command} {wire : Bytes}

/-- A command that is refused is not carried out. -/
theorem respond_of_refused {e : Refusal} (haction : command.action limits = .error e)
    (b : Bench B) : respond limits command wire b = .error e b := by
  unfold respond
  rw [haction]
  rfl

/-- A command that is not refused is carried out, then echoed, then answered. -/
theorem respond_of_action {a : Action} (haction : command.action limits = .ok a) (b : Bench B) :
    respond limits command wire b =
      match command.echo wire b.queue with
      | .error e => .error (.outgoing e) ⟨Board.perform a b.board, b.queue⟩
      | .ok queue => Bench.report command.answer ⟨Board.perform a b.board, queue⟩ := by
  unfold respond Command.echo
  rw [haction]
  cases command.echoed with
  | false => rfl
  | true =>
    show EStateM.bind (Bench.enqueue (Queue.sendBytes wire)) (fun _ => Bench.report command.answer)
      ⟨Board.perform a b.board, b.queue⟩ = _
    rw [EStateM.bind, Bench.enqueue]
    cases b.queue.sendBytes wire <;> rfl

/-- A report is what the board says, if it is asked. -/
theorem report_eq (answer : Answer) (board : B) (queue : Queue) :
    Bench.report answer ⟨board, queue⟩ =
      match answer.ask board with
      | (Option.none, board) => .ok () ⟨board, queue⟩
      | (some r, board) =>
        match queue.send r with
        | .ok queue => .ok () ⟨board, queue⟩
        | .error e => .error (.outgoing e) ⟨board, queue⟩ := by
  cases answer <;> rfl

/-- **A response ends in one of these ways.** -/
theorem responded (limits : BoardLimits) (command : Command) (wire : Bytes) (b : Bench B) :
    Responded limits command wire b (respond limits command wire b) := by
  cases haction : command.action limits with
  | error e =>
    rw [respond_of_refused haction]
    exact .refused haction
  | ok a =>
    rw [respond_of_action haction]
    cases hecho : command.echo wire b.queue with
    | error e => exact .unechoed haction hecho
    | ok queue =>
      simp only [report_eq]
      cases hask : command.answer.ask (Board.perform a b.board) with
      | mk told board =>
        cases told with
        | none =>
          -- nothing is told only when nothing is asked
          cases hanswer : command.answer with
          | none =>
            rw [hanswer] at hask
            cases hask
            exact .silent haction hecho hanswer
          | digitalIn pin =>
            rw [hanswer] at hask
            cases hask
          | uartTx uart =>
            rw [hanswer] at hask
            cases hask
        | some r =>
          cases hsend : queue.send r with
          | ok queue' => simpa only [hsend] using Responded.reported haction hecho hask hsend
          | error e => simpa only [hsend] using Responded.unreported haction hecho hask hsend

end Responded

/-! ### What is put on the queue -/

/-- What is echoed is two-way, so the image that came in is one that may go out. -/
theorem isImage_echo {received : Received .incoming} (h : received.Genuine)
    (hechoed : received.message.echoed = true) : IsImage .outgoing received.wire := by
  cases h with
  | @intro kind block trailer hblock htrailer =>
    cases kind with
    | twoWay kind => exact IsImage.other_way hblock htrailer
    -- no command of a one-way kind is echoed
    | oneWay kind => cases kind <;> cases hechoed

/-- What is echoed are the bytes that came in, or nothing. -/
theorem Command.eq_extend_of_echo {command : Command} {wire : Bytes} {q q' : Queue}
    (h : command.echo wire q = .ok q') : q' = q.extend (if command.echoed then wire else []) := by
  unfold echo at h
  split at h
  next hechoed =>
    rw [if_pos hechoed]
    exact Queue.eq_extend_of_sendBytes h
  next hsilent =>
    cases h
    rw [if_neg hsilent, Queue.extend_nil]

/-- The echo puts a whole message on the queue, or nothing. -/
theorem echo_eq_extend {received : Received .incoming} (h : received.Genuine) {q q' : Queue}
    (hecho : received.message.echo received.wire q = .ok q') :
    ∃ added, Whole .outgoing added ∧ q' = q.extend added := by
  refine ⟨_, ?_, Command.eq_extend_of_echo hecho⟩
  split
  next hechoed => exact .of_image (isImage_echo h hechoed)
  · exact .nil

/-- A message that is sent is put on the queue whole. -/
theorem whole_of_send {r : Report} {q q' : Queue} (h : q.send r = .ok q') :
    ∃ added, Whole .outgoing added ∧ q' = q.extend added := by
  obtain ⟨image, hencode, hextend⟩ := Queue.eq_extend_of_send h
  exact ⟨image, .of_image (isImage_of_encode hencode), hextend⟩

/-- **What a response puts on the queue are whole messages**, however it ends. -/
theorem queue_respond [Board B] (limits : BoardLimits) {received : Received .incoming}
    (h : received.Genuine) (b : Bench B) :
    ∃ added, Whole .outgoing added ∧
      (stateOf (respond limits received.message received.wire b)).queue = b.queue.extend added := by
  have hresponded := responded limits received.message received.wire b
  generalize respond limits received.message received.wire b = result at hresponded ⊢
  cases hresponded with
  | refused haction => exact ⟨[], .nil, b.queue.extend_nil.symm⟩
  | unechoed haction hecho => exact ⟨[], .nil, b.queue.extend_nil.symm⟩
  | silent haction hecho hanswer => exact echo_eq_extend h hecho
  | reported haction hecho hask hsend =>
    obtain ⟨echo, hwhole, rfl⟩ := echo_eq_extend h hecho
    obtain ⟨report, hreport, rfl⟩ := whole_of_send hsend
    exact ⟨echo ++ report, hwhole.append hreport, Queue.extend_extend _ _ _⟩
  | unreported haction hecho hask hsend => exact echo_eq_extend h hecho

end PinBridge
