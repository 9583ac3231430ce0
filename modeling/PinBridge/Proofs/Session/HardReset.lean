/-
PinBridge/Proofs/Session/HardReset.lean

What follows a hard reset in the same chunk.

A hard reset ends the session, but the receiver goes on to the end of the
chunk: from there on it hands messages over to a handler that does nothing.  So
whatever follows changes neither the board nor the queue, and nothing of it is
held afterwards.  It is counted, however, and a receiver that aborts stops at a
byte that is no tag as it always does, and reports it (`hardReset_rest_seen`).

Main statement: `receive_hardReset`.
-/
import PinBridge.Proofs.Session.Chunks

namespace PinBridge

/-- The hard reset that a board obeys, on the wire. -/
def hardResetImage : Bytes := Kind.tag (.oneWay .session) :: Wire.littleEndian 4 Wire.magic.toNat

example : Direction.incoming.encode (.hardReset Wire.magic) = .ok hardResetImage := rfl

example : hardResetImage = [0x00, 0x49, 0x4F, 0x49, 0x4F] := by decide

namespace Session

variable {B : Type} [Board B] {settings : Settings} {s s₁ : Session B}

/-! ### Up to the reset -/

/-- What comes behind a chunk that leaves the session running might have come in the next one. -/
theorem receive_append_of_ok (h : s.Coherent settings) {front : Bytes}
    (hfront : receive front s = .ok () s₁) (hrunning : s₁.receiver.halted = false) (rest : Bytes) :
    receive (front ++ rest) s = receive rest s₁ := by
  rw [receive_eq] at hfront
  cases hfirst : s.reception front with
  | error e left =>
    rw [hfirst] at hfront
    cases hfront
  | ok _ left =>
    obtain ⟨receiver, r⟩ := left
    rw [hfirst] at hfront
    cases hfront
    cases hhalted : s.receiver.halted with
    | true =>
      rw [reception, Receiver.feed_of_halted hhalted] at hfirst
      cases hfirst
    | false =>
      cases hended : r.ended with
      | true =>
        -- a session that has ended is halted
        rw [receiver_settle, hended] at hrunning
        cases hrunning
      | false => exact receive_append h hhalted hfirst hended rest

/-- What is handed over and carried out when the reset is complete. -/
theorem handle_hardReset (limits : BoardLimits) {r : Reception B} (hended : r.ended = false)
    (wire : Bytes) :
    Reception.handle limits ⟨.hardReset Wire.magic, wire⟩ r
      = .ok () ⟨⟨Board.perform .hardReset r.bench.board, r.bench.queue⟩, true⟩ := by
  have haction : (Command.hardReset Wire.magic).action limits = .ok .hardReset := rfl
  rw [Reception.handle_of_running hended, respond_of_action haction]
  rfl

/-- A receiver between two messages takes the reset, and then sees the rest. -/
theorem reception_hardReset (h : s₁.Coherent settings) (hrunning : s₁.receiver.halted = false)
    (hboundary : s₁.receiver.isMidway = false) (rest : Bytes) :
    ∃ r : Receiver, r.recovery = s₁.receiver.recovery ∧ r.decoded = s₁.receiver.decoded + 1 ∧
      r.dropped = s₁.receiver.dropped ∧
      s₁.reception (hardResetImage ++ rest)
        = Receiver.consume .stream (Reception.handle s₁.settings.board) rest r.restart
          ⟨⟨Board.perform .hardReset s₁.board, s₁.queue⟩, true⟩ := by
  have hcursor : s₁.receiver.cursor = 0 := by
    have hmidway := of_decide_eq_false hboundary
    omega
  have hrestart : s₁.receiver.restart = s₁.receiver := h.reachable.restart_eq hcursor
  let handle : Handler .incoming SessionError (Reception B) :=
    Reception.handle s₁.settings.board
  let block : Bytes := Wire.littleEndian 4 Wire.magic.toNat
  have hblock : block.length = (Kind.oneWay .session).blockLength .incoming := rfl
  have htrailer : ([] : Bytes).length
      = Direction.incoming.trailerLength (.oneWay .session) block := rfl
  -- the receiver as it is when the last byte of the reset has been taken
  let complete : Receiver := s₁.receiver.restart.inTrailer .incoming (.oneWay .session) block []
  have hhandle : handle ⟨.hardReset Wire.magic, hardResetImage⟩ s₁.opening
      = .ok () ⟨⟨Board.perform .hardReset s₁.board, s₁.queue⟩, true⟩ :=
    handle_hardReset s₁.settings.board rfl hardResetImage
  have hdeliver : complete.deliver handle ⟨.hardReset Wire.magic, hardResetImage⟩ s₁.opening
      = .ok () (complete.complete, ⟨⟨Board.perform .hardReset s₁.board, s₁.queue⟩, true⟩) := by
    rw [Receiver.deliver, hhandle]
  refine ⟨complete.complete, rfl, rfl, rfl, ?_⟩
  calc s₁.reception (hardResetImage ++ rest)
      = Receiver.consume .stream handle (hardResetImage ++ rest) s₁.receiver.restart
          s₁.opening := by
        rw [hrestart, reception, Receiver.feed_of_running hrunning]
    _ = Receiver.andThen
          (complete.deliver handle ⟨.hardReset Wire.magic, hardResetImage⟩ s₁.opening)
          (Receiver.consume .stream handle rest) :=
        Receiver.consume_message hblock htrailer rest s₁.receiver s₁.opening
    _ = Receiver.consume .stream handle rest complete.complete.restart
          ⟨⟨Board.perform .hardReset s₁.board, s₁.queue⟩, true⟩ := by
        rw [hdeliver]
        rfl

/-! ### Behind the reset -/

/-- With a hard reset in it a chunk ends as the receiver ends that sees the rest of it, but for what
the session has become. -/
theorem receive_behind_hardReset (h : s.Coherent settings) {front : Bytes}
    (hfront : receive front s = .ok () s₁) (hrunning : s₁.receiver.halted = false)
    (hboundary : s₁.receiver.isMidway = false) (rest : Bytes) :
    ∃ (r : Receiver) (ended : Reception B), r.recovery = settings.recovery ∧
      r.decoded = s₁.receiver.decoded + 1 ∧ r.dropped = s₁.receiver.dropped ∧
      (Reception.handle s₁.settings.board).Idle ended ∧
      let seen := Receiver.consume .stream (Reception.handle s₁.settings.board) rest r.restart ended
      let result := receive (front ++ hardResetImage ++ rest) s
      errorOf result = errorOf seen ∧
      (stateOf result).receiver.decoded = (stateOf seen).1.decoded ∧
      (stateOf result).receiver.dropped = (stateOf seen).1.dropped ∧
      (stateOf result).effects
        = ⟨Board.perform .hardReset s₁.board, s₁.queue.clear, s₁.transmitter.reset, true, []⟩ := by
  have hs₁ : s₁.Coherent settings := by
    have hnext := h.receive front
    rw [hfront] at hnext
    exact hnext
  obtain ⟨r, hrecovery, hdecoded, hdropped, hreception⟩ :=
    reception_hardReset hs₁ hrunning hboundary rest
  let ended : Reception B := ⟨⟨Board.perform .hardReset s₁.board, s₁.queue⟩, true⟩
  have hreset : ended.ended = true := rfl
  have hidle : (Reception.handle s₁.settings.board).Idle ended := idle_of_ended _ hreset
  refine ⟨r, ended, hrecovery.trans hs₁.recovery_eq, hdecoded, hdropped, hidle, ?_⟩
  intro seen result
  have hresult : result = mapState (fun left => s₁.settle left.1 left.2) seen := by
    show receive (front ++ hardResetImage ++ rest) s = _
    rw [List.append_assoc, receive_append_of_ok h hfront hrunning, receive_eq, hreception]
  obtain ⟨herror, hstate, hcounted, hlost⟩ := settle_behind_end hreset s₁ r.restart rest
  rw [hresult]
  exact ⟨herror, hcounted, hlost, congrArg effects hstate⟩

/-- **A hard reset ends the session, whatever follows it in the chunk.**  If the chunk up to the
reset leaves the session running between two messages, then whatever comes behind the reset, the
board has performed it and nothing else since, the queue is empty, no span is on its way, and the
session is halted and holds nothing.

What comes behind is still received.  Its messages are counted as decoded.  A receiver that
resynchronises does not fail, and counts bytes that are no tags as dropped; one that aborts fails at
the first of them, and counts the messages before it. -/
theorem receive_hardReset (h : s.Reachable settings) {front : Bytes}
    (hfront : receive front s = .ok () s₁) (hrunning : s₁.receiver.halted = false)
    (hboundary : s₁.receiver.isMidway = false) (rest : Bytes) :
    let result := receive (front ++ hardResetImage ++ rest) s
    let segments := (segmentation .incoming rest).segments
    (stateOf result).effects
      = ⟨Board.perform .hardReset s₁.board, s₁.queue.clear, s₁.transmitter.reset, true, []⟩ ∧
    (settings.recovery = .resync →
      errorOf result = none ∧
      (stateOf result).receiver.decoded
        = s₁.receiver.decoded + 1 + (messagesIn .incoming segments).length ∧
      (stateOf result).receiver.dropped = s₁.receiver.dropped + straysIn segments) ∧
    (settings.recovery = .abort →
      errorOf result = (firstStray segments).map (fun b => .stream (.unknownTag b)) ∧
      (stateOf result).receiver.decoded
        = s₁.receiver.decoded + 1 + (messagesIn .incoming (beforeStray segments)).length ∧
      (stateOf result).receiver.dropped = s₁.receiver.dropped) := by
  obtain ⟨r, ended, hrecovery, hdecoded, hdropped, hidle, herror, hcounted, hlost, heffects⟩ :=
    receive_behind_hardReset h.coherent hfront hrunning hboundary rest
  intro result segments
  refine ⟨heffects, fun hresync => ?_, fun habort => ?_⟩
  · rw [← hdecoded, ← hdropped, herror, hcounted, hlost]
    exact Receiver.consume_idle_of_resync hidle .stream (hrecovery.trans hresync) rest
  · rw [← hdecoded, ← hdropped, herror, hcounted, hlost]
    exact Receiver.consume_idle_of_abort hidle .stream (hrecovery.trans habort) rest

/-- The theorem for a session that carries out a command before the reset, and aborts at a byte
behind it that is no tag. -/
theorem receive_hardReset_aborting :
    let s : Session VirtualBoard := .new .standard (.new .standard)
    let s₁ := stateOf (receive [0x01] s)
    let result := receive ([0x01] ++ hardResetImage ++ [0x02, 0x0C, 0xFF]) s
    s.Reachable .standard ∧ receive [0x01] s = .ok () s₁ ∧ s₁.receiver.halted = false ∧
      s₁.receiver.isMidway = false ∧
      (stateOf result).effects
        = ⟨Board.perform .hardReset s₁.board, s₁.queue.clear, s₁.transmitter.reset, true, []⟩ ∧
      errorOf result = some (.stream (.unknownTag 0xFF)) := by
  intro s s₁ result
  have hs : s.Reachable .standard := ⟨.new .standard, [], rfl⟩
  have hfront : receive [0x01] s = .ok () s₁ := eq_ok_of_errorOf (by decide +kernel)
  have hrunning : s₁.receiver.halted = false := by decide +kernel
  have hboundary : s₁.receiver.isMidway = false := by decide +kernel
  have hstray : firstStray (segmentation .incoming [0x02, 0x0C, 0xFF]).segments = some 0xFF := by
    decide +kernel
  obtain ⟨heffects, -, haborts⟩ :=
    receive_hardReset hs hfront hrunning hboundary [0x02, 0x0C, 0xFF]
  obtain ⟨herror, -, -⟩ := haborts rfl
  rw [hstray] at herror
  exact ⟨hs, hfront, hrunning, hboundary, heffects, herror⟩

/-- What follows a hard reset shows: a byte that is no tag fails the chunk, and a message is
counted. -/
theorem hardReset_rest_seen :
    let s : Session VirtualBoard := .new .standard (.new .standard)
    s.Reachable .standard ∧ s.receiver.halted = false ∧
      errorOf (receive (hardResetImage ++ []) s) = none ∧
      errorOf (receive (hardResetImage ++ [0xFF]) s) = some (.stream (.unknownTag 0xFF)) ∧
      (stateOf (receive (hardResetImage ++ []) s)).receiver.decoded = 1 ∧
      (stateOf (receive (hardResetImage ++ [0x01]) s)).receiver.decoded = 2 := by
  intro s
  have hs : s.Reachable .standard := ⟨.new .standard, [], rfl⟩
  refine ⟨hs, rfl, ?_, ?_, ?_, ?_⟩
  · decide +kernel
  · decide +kernel
  · decide +kernel
  · decide +kernel

end Session
end PinBridge
