/-
PinBridge/Proofs/Session/Echo.lean

What the host reads after a command that the board has carried out.

An echo is the bytes of the command, whatever bits without a name are set in
them.  The host has its own table of kinds and its own rule for trailers, and
reads the echo by these.  On two-way kinds they agree with the board's, so it
reads the same message (`genuine_twoWay`).

A report is written by the board itself, so the host reads what is left of it
when its fields are cut to the width of their places.  The pin or UART of a
report comes from a command that was read, where it has this width already, and
a backlog that is too large is told as the largest one that can be told
(`told_eq`).

Main statement: `respond_told`.
-/
import PinBridge.Board.Virtual
import PinBridge.Proofs.Session.Limits
import PinBridge.Proofs.Wire.Streams

namespace PinBridge

/-! ### What is due -/

/-- The kinds of the commands that are echoed. -/
def Kind.echoed : List Kind :=
  [.twoWay .softReset, .twoWay .pinDigitalOut, .twoWay .pinDigitalIn, .twoWay .changeNotify,
    .twoWay .pinAnalogIn, .twoWay .uartConfig, .twoWay .pinUartRx, .twoWay .pinUartTx]

/-- The echo as the host is to read it, if there is one: the message of the same name with the same
fields, in the bytes that came in. -/
def Received.echo (received : Received .incoming) : List (Received .outgoing) :=
  match received.message with
  | .twoWay m => if .twoWay m.kind ∈ Kind.echoed then [⟨.twoWay m, received.wire⟩] else []
  | _ => []

/-- What else the host is to read, given the board as it is when the command has been carried out:
the level of an input that is watched from now on, or what a UART has still to send. -/
def Command.told {B : Type} [Board B] (board : B) : Command → List Report
  | .twoWay (.changeNotify pin true) => [.digitalInStatus pin (Board.inputLevel pin board).1]
  | .twoWay (.uartConfig uart ..) =>
    [.uartTxStatus uart (.ofNat (min (Board.uartBacklog uart board).1.toNat 0x3FFF))]
  | _ => []

/-! ### Echoes -/

/-- **A two-way message is read alike in both directions.** -/
theorem genuine_twoWay {m : TwoWay} {wire : Bytes}
    (h : (⟨.twoWay m, wire⟩ : Received .incoming).Genuine) :
    (⟨.twoWay m, wire⟩ : Received .outgoing).Genuine := by
  obtain ⟨block, trailer, hblock, htrailer, hparse, hwire⟩ := h.of_kind (.twoWay m.kind) rfl
  have hmessage : m = TwoWay.parse m.kind block trailer := Command.twoWay.inj hparse
  have houtgoing : (⟨Direction.outgoing.parse (.twoWay m.kind) block trailer,
      Kind.tag (.twoWay m.kind) :: block ++ trailer⟩ : Received .outgoing).Genuine :=
    .intro hblock htrailer
  have hreport : Direction.outgoing.parse (.twoWay m.kind) block trailer = .twoWay m :=
    congrArg Report.twoWay hmessage.symm
  have hbytes : wire = Kind.tag (.twoWay m.kind) :: block ++ trailer := hwire
  rw [hbytes, ← hreport]
  exact houtgoing

theorem Command.echoed_iff (command : Command) :
    command.echoed = true ↔ command.kind ∈ Kind.echoed := by
  cases command with
  | twoWay m => cases m <;> simp [echoed, kind, TwoWay.kind, Kind.echoed]
  | _ => simp [echoed, kind, Kind.echoed]

/-- The bytes of an echo are those that came in. -/
theorem flatMap_echo (received : Received .incoming) :
    received.echo.flatMap Received.wire
      = if received.message.kind ∈ Kind.echoed then received.wire else [] := by
  obtain ⟨message, wire⟩ := received
  cases message with
  | twoWay m =>
    show (if .twoWay m.kind ∈ Kind.echoed then [_] else []).flatMap _
      = if .twoWay m.kind ∈ Kind.echoed then wire else []
    split
    · exact List.flatMap_singleton _ _
    · rfl
  | _ => rfl

/-- The echo that is queued is the one that is due. -/
theorem eq_extend_of_echo {received : Received .incoming} {q q' : Queue}
    (h : received.message.echo received.wire q = .ok q') :
    q' = q.extend (received.echo.flatMap Received.wire) := by
  have hextend := Command.eq_extend_of_echo h
  simp only [Command.echoed_iff] at hextend
  rw [flatMap_echo]
  exact hextend

/-- What is echoed is read as the command that came in. -/
theorem genuine_echo {received : Received .incoming} (h : received.Genuine) :
    ∀ answer ∈ received.echo, answer.Genuine := by
  obtain ⟨message, wire⟩ := received
  cases message with
  | twoWay m =>
    intro answer hanswer
    simp only [Received.echo] at hanswer
    split at hanswer
    · rw [List.mem_singleton] at hanswer
      rw [hanswer]
      exact genuine_twoWay h
    · cases hanswer
  | _ => exact List.forall_mem_nil _

/-! ### Reports -/

/-- What is read from the wire fits. -/
theorem Received.Genuine.fits {received : Received .incoming} (h : received.Genuine) :
    received.message.Fits := by
  obtain ⟨-, -⟩ := h
  exact Command.fits_parse _ _ _

/-- **What the host is told is what the board says**, as far as it can be told. -/
theorem told_eq {B : Type} [Board B] {command : Command} (h : command.Fits) (board : B) :
    command.told board = ((command.answer.ask board).1.map Report.narrow).toList := by
  cases command with
  | twoWay m =>
    cases m with
    | changeNotify pin enabled =>
      cases enabled with
      | false => rfl
      | true =>
        have hpin : pin % 64 = pin := (Wire.mod_eq_self_iff (by decide)).2 h
        show [Report.digitalInStatus pin _] = [.digitalInStatus (pin % 64) _]
        rw [hpin]
        rfl
    | uartConfig uart rate speed4x twoStopBits parity =>
      have huart : uart % 4 = uart := (Wire.mod_eq_self_iff (by decide)).2 h.1
      show [Report.uartTxStatus uart _] = [.uartTxStatus (uart % 4) _]
      rw [huart]
      rfl
    | _ => rfl
  | _ => rfl

/-! ### Responses that succeed -/

section Responses

variable {B : Type} [Board B] {limits : BoardLimits} {received : Received .incoming}

/-- A response that succeeds queues what is due, and all of it can be read. -/
theorem respond_queues (h : received.Genuine) {b b' : Bench B}
    (hrespond : respond limits received.message received.wire b = .ok () b') :
    ∃ (a : Action) (reports : List (Received .outgoing)),
      received.message.action limits = .ok a ∧
      reports.map Received.message = received.message.told (Board.perform a b.board) ∧
      (∀ answer ∈ received.echo ++ reports, answer.Genuine) ∧
      b'.queue = b.queue.extend ((received.echo ++ reports).flatMap Received.wire) := by
  have hresponded := responded limits received.message received.wire b
  rw [hrespond] at hresponded
  cases hresponded with
  | @silent a queue haction hecho hanswer =>
    refine ⟨a, [], haction, ?_, ?_, ?_⟩
    · rw [told_eq h.fits, hanswer]
      rfl
    · rw [List.append_nil]
      exact genuine_echo h
    · rw [List.append_nil]
      exact eq_extend_of_echo hecho
  | @reported a queue queue' r board haction hecho hask hsend =>
    obtain ⟨image, hencode, rfl⟩ := Queue.eq_extend_of_send hsend
    refine ⟨a, [⟨r.narrow, image⟩], haction, ?_, ?_, ?_⟩
    · rw [told_eq h.fits, hask]
      rfl
    · rw [List.forall_mem_append]
      exact ⟨genuine_echo h, List.forall_mem_singleton.2 (genuine_of_encode hencode)⟩
    · rw [eq_extend_of_echo hecho, Queue.extend_extend, List.flatMap_append,
        List.flatMap_singleton]

/-- **The host reads the echo and the report.**  When a command that came as a whole message has
been carried out, its bytes are queued unchanged if it is of a kind that is echoed, behind them one
report if the command asks for one, and nothing else.  A host that reads what was queued, in
whatever chunks and however it recovers, is handed the message of the same name with the same
fields, in the same bytes, and then the report: the pin of the command with the level that the board
answered, or the UART of the command with the backlog that the board answered, as far as it can be
told.  Nothing is dropped or left over. -/
theorem respond_told (h : received.Genuine) {b b' : Bench B}
    (hrespond : respond limits received.message received.wire b = .ok () b') :
    ∃ (a : Action) (reports : List (Received .outgoing)) (added : Bytes),
      received.message.action limits = .ok a ∧
      reports.map Received.message = received.message.told (Board.perform a b.board) ∧
      added = (if received.message.kind ∈ Kind.echoed then received.wire else [])
        ++ reports.flatMap Received.wire ∧
      b'.queue = b.queue.extend added ∧
      ∀ {ε σ : Type} (ofStream : StreamError → ε) (handle : Handler .outgoing ε σ),
        handle.Accepts → ∀ (recovery : Recovery) (s : σ) (chunks : List Bytes),
          chunks.flatten = added → ∃ (r : Receiver) (s' : σ),
            chunks.forM (Receiver.feed ofStream handle.recorded) (.new recovery, s, [])
              = .ok () (r, s', received.echo ++ reports) ∧
            r.dropped = 0 ∧ r.isMidway = false := by
  obtain ⟨a, reports, haction, htold, hgenuine, hqueue⟩ := respond_queues h hrespond
  rw [List.flatMap_append, flatMap_echo] at hqueue
  refine ⟨a, reports, _, haction, htold, rfl, hqueue, ?_⟩
  intro ε σ ofStream handle haccepts recovery s chunks hchunks
  rw [← flatMap_echo, ← List.flatMap_append] at hchunks
  obtain ⟨r, s', -, hdropped, hmidway, hfeed⟩ :=
    Receiver.feed_recorded ofStream haccepts hgenuine hchunks recovery s
  exact ⟨r, s', hfeed, hdropped, hmidway⟩

/-- The theorem for an input that is to be watched, in a command with a bit set that has no name:
the echo has this bit as well, and the report has not. -/
theorem respond_told_of_unnamed_bit :
    let received : Received .incoming :=
      ⟨.twoWay (.changeNotify 3 true), [5, 0b00001111]⟩
    let board : VirtualBoard := (VirtualBoard.new .standard).driveInput 3 true
    let b : Bench VirtualBoard := ⟨board, .empty 64⟩
    let b' : Bench VirtualBoard :=
      ⟨board.perform (.watchInput 3 true), (Queue.empty 64).extend [5, 0b00001111, 3, 0b00001101]⟩
    received.Genuine ∧
      respond .standard received.message received.wire b = .ok () b' ∧
      ∃ reports : List (Received .outgoing),
        reports.map Received.message = [.digitalInStatus 3 true] ∧
        b'.queue.content = received.wire ++ reports.flatMap Received.wire := by
  intro received board b b'
  have hblock : ([0b00001111] : Bytes).length
      = Kind.blockLength .incoming (.twoWay .changeNotify) := rfl
  have htrailer : ([] : Bytes).length
      = Direction.incoming.trailerLength (.twoWay .changeNotify) [0b00001111] := rfl
  have hgenuine : received.Genuine := .intro hblock htrailer
  have hrespond : respond .standard received.message received.wire b = .ok () b' := rfl
  obtain ⟨a, reports, added, haction, htold, hadded, hqueue, -⟩ := respond_told hgenuine hrespond
  cases haction
  rw [hadded] at hqueue
  exact ⟨hgenuine, hrespond, reports, htold, congrArg Queue.content hqueue⟩

end Responses
end PinBridge
