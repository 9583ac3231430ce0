/-
PinBridge/Proofs/Tool/Simulation.lean

What a simulation reports, and the size of the pieces that it is fed in.

On a virtual board a hard reset shows among the actions, and it shows there
exactly if it has ended the session (`VirtualBoard.showsReset`).  Without one,
pieces of any size come to what the whole stream comes to, and so does the
report.  With one, the actions and the bytes sent are still the same, but the
counts and the error depend on which bytes behind the reset came in the same
piece: those are received, and the pieces that follow are refused
(`Simulation.behindReset`).

Main statement: `simulate_pieces`.
-/
import PinBridge.Tool.Run
import PinBridge.Proofs.Session.Halt
import PinBridge.Proofs.Session.Output
import PinBridge.Proofs.Session.Pieces

namespace PinBridge
namespace Tool

variable {settings : Settings} {opened : Session VirtualBoard}

/-! ### Behind the reset -/

/-- What a simulation comes to that has reset its board, if the last piece that it took holds the
bytes `seen` behind the reset, and if more pieces are refused or there are none. -/
def Simulation.behindReset (recovery : Recovery) (seen : Bytes) (more : Bool) (sim : Simulation) :
    Simulation :=
  let segments := (segmentation .incoming seen).segments
  let refused : Option SessionError := if more then some (.stream .halted) else none
  match recovery with
  | .resync =>
    { sim with
      decoded := sim.decoded + (messagesIn .incoming segments).length
      dropped := sim.dropped + straysIn segments
      error := refused }
  | .abort =>
    { sim with
      decoded := sim.decoded + (messagesIn .incoming (beforeStray segments)).length
      error := ((firstStray segments).map fun b => .stream (.unknownTag b)).or refused }

/-- With nothing behind the reset there is nothing to add. -/
theorem Simulation.behindReset_nil (recovery : Recovery) {sim : Simulation}
    (herror : sim.error = none) : sim.behindReset recovery [] false = sim := by
  obtain ⟨actions, outgoing, decoded, dropped, error⟩ := sim
  have hsegments : (segmentation .incoming []).segments = [] := by rw [segmentation]
  subst herror
  cases recovery <;> simp [behindReset, hsegments, messagesIn, straysIn, firstStray, beforeStray]

/-- The simulation of a session that a reset ends. -/
theorem ofFed_endedBy (h : opened.Coherent settings) (hrunning : opened.receiver.halted = false)
    {bs : Bytes} {b : UInt8} (hended : opened.EndedBy bs b) {chunk : Nat} (hchunk : 0 < chunk)
    (rest : Bytes) :
    let seen := Wire.pieceRest chunk (bs ++ [b]) rest
    Simulation.ofFed (Session.receiveAll (Wire.chunksOf chunk (bs ++ [b] ++ rest)) opened)
      = (Simulation.ofFed (Session.receive (bs ++ [b]) opened)).behindReset settings.recovery seen
          (seen ≠ rest) := by
  intro seen
  have hne : bs ++ [b] ≠ [] := List.append_ne_nil_of_right_ne_nil bs (List.cons_ne_nil b [])
  obtain ⟨before, last, after, hpieces, hfront, hlast, hafter⟩ :=
    Wire.chunksOf_append hchunk hne rest
  obtain ⟨-, heffects, -, hresync, habort⟩ := Session.receive_endedBy h hrunning hended seen
  have hrefused : (if after = [] then none else some (SessionError.stream .halted))
      = if decide (seen ≠ rest) then some (.stream .halted) else none := by
    by_cases hall : seen = rest
    · rw [if_pos (hafter.2 hall), if_neg (by simpa using hall)]
    · rw [if_neg fun hnil => hall (hafter.1 hnil), if_pos (decide_eq_true hall)]
  rw [hpieces, Session.receiveAll_endedBy h hrunning hended hfront hlast, Simulation.ofFed,
    Session.stateOf_refusing, Session.errorOf_refusing, hrefused]
  generalize Session.receive (bs ++ [b] ++ Wire.pieceRest chunk (bs ++ [b]) rest) opened = result
    at heffects hresync habort ⊢
  have hactions : (stateOf result).board.actions
      = (stateOf (Session.receive (bs ++ [b]) opened)).board.actions :=
    congrArg (fun effects => effects.board.actions) heffects
  have houtgoing : (stateOf result).queue.content
      = (stateOf (Session.receive (bs ++ [b]) opened)).queue.content :=
    congrArg (fun effects => effects.queue.content) heffects
  rw [hactions, houtgoing]
  cases hrecovery : settings.recovery with
  | resync =>
    obtain ⟨hnone, hdecoded, hdropped⟩ := hresync hrecovery
    rw [hnone, hdecoded, hdropped]
    rfl
  | abort =>
    obtain ⟨hstray, hdecoded, hdropped⟩ := habort hrecovery
    rw [hstray, hdecoded, hdropped]
    rfl

/-! ### Whole simulations -/

/-- Simulated, the stream `front` comes to `base` in pieces of any size, and its last byte is the
one that resets the board. -/
structure Simulation.ResetBy (settings : Settings) (high : List UInt8) (front : Bytes)
    (base : Simulation) : Prop where
  simulated : ∀ chunk, 0 < chunk → simulate settings front chunk high = .ok base
  reset : Action.hardReset ∈ base.actions
  unstopped : base.error = none
  earlier : ∀ bs, bs <+: front → bs ≠ front → ∀ chunk sim, 0 < chunk →
    simulate settings bs chunk high = .ok sim → Action.hardReset ∉ sim.actions

theorem actions_boardWith (limits : BoardLimits) (high : List UInt8) :
    (boardWith limits high).actions = [] := by
  have hdrive : ∀ board : VirtualBoard,
      (high.foldl (fun board pin => board.driveInput pin true) board).actions = board.actions := by
    induction high with
    | nil => exact fun board => rfl
    | cons pin high ih => exact fun board => ih (board.driveInput pin true)
  exact hdrive (.new limits)

/-- A session that is opened has the board and the way of recovery that it had before, and runs. -/
theorem opened_of_start {s s' : Session VirtualBoard} (h : Session.start s = .ok () s') :
    s'.board = s.board ∧ s'.receiver.halted = false := by
  rw [Session.start_eq, Session.send_eq] at h
  split at h
  · cases h
    exact ⟨rfl, rfl⟩
  · cases h

/-- Where there is no reset, the size of the pieces does not show. -/
theorem simulate_of_unended (h : opened.Unsent settings) (hrunning : opened.receiver.halted = false)
    {high : List UInt8}
    (hstart : Session.start (Session.new settings (boardWith settings.board high))
      = .ok () opened) {stream : Bytes} (hends : opened.ends stream = false) {chunk : Nat}
    (hchunk : 0 < chunk) :
    simulate settings stream chunk high
      = .ok (.ofFed (Session.receive stream opened)) := by
  have hflatten : (Wire.chunksOf chunk stream).flatten = stream :=
    Wire.flatten_chunksOf hchunk stream
  rw [simulate_eq hstart h, Session.receiveAll_eq h.coherent hrunning, hflatten]
  rw [hflatten]
  exact hends

/-- A simulation has no reset, or one byte of the stream completes it. -/
theorem simulate_cases (settings : Settings) (stream : Bytes) (high : List UInt8)
    (hroom : 17 ≤ settings.queueCapacity.toNat) :
    (∃ whole : Simulation, Action.hardReset ∉ whole.actions ∧
      ∀ chunk, 0 < chunk → simulate settings stream chunk high = .ok whole) ∨
    ∃ (front rest : Bytes) (base : Simulation), front ++ rest = stream ∧
      base.ResetBy settings high front ∧
      ∀ chunk, 0 < chunk →
        let seen := Wire.pieceRest chunk front rest
        simulate settings stream chunk high
          = .ok (base.behindReset settings.recovery seen (seen ≠ rest)) := by
  obtain ⟨opened, hstart, hopened⟩ :=
    Session.start_new settings (boardWith settings.board high) hroom
  obtain ⟨hboard, hrunning⟩ := opened_of_start hstart
  have hnone : Action.hardReset ∉ opened.board.actions := by
    have hactions : opened.board.actions = [] := by
      rw [hboard]
      exact actions_boardWith settings.board high
    rw [hactions]
    exact List.not_mem_nil
  have hiff := Session.ends_iff VirtualBoard.showsReset hopened.coherent hnone
  cases hends : opened.ends stream with
  | false =>
    refine .inl ⟨.ofFed (Session.receive stream opened), fun hmem => ?_, fun chunk hchunk => ?_⟩
    · rw [(hiff stream).2 hmem] at hends
      cases hends
    · exact simulate_of_unended hopened hrunning hstart hends hchunk
  | true =>
    obtain ⟨bs, b, rest, hstream, hended⟩ := Session.exists_endedBy hrunning hends
    obtain ⟨hunstopped, -, -, -, -⟩ :=
      Session.receive_endedBy hopened.coherent hrunning hended []
    refine .inr ⟨bs ++ [b], rest, .ofFed (Session.receive (bs ++ [b]) opened), hstream,
      ⟨fun chunk hchunk => ?_, (hiff _).1 hended.ends, hunstopped, ?_⟩, fun chunk hchunk => ?_⟩
    · -- with nothing behind the reset there is one piece that ends the session
      have hfed := ofFed_endedBy hopened.coherent hrunning hended hchunk []
      have hseen : Wire.pieceRest chunk (bs ++ [b]) [] = [] := List.take_nil
      rw [simulate_eq hstart hopened, ← List.append_nil (bs ++ [b]), hfed, List.append_nil, hseen]
      exact congrArg Except.ok (Simulation.behindReset_nil settings.recovery hunstopped)
    · intro front hfront hne size sim hsize hsim hmem
      have hbefore : front <+: bs := by
        rcases List.prefix_concat_iff.1 hfront with heq | hbefore
        · exact absurd heq hne
        · exact hbefore
      have hearlier := hended.of_prefix hopened.coherent hrunning hbefore
      rw [simulate_of_unended hopened hrunning hstart hearlier hsize] at hsim
      cases hsim
      rw [(hiff front).2 hmem] at hearlier
      cases hearlier
    · subst hstream
      exact (simulate_eq hstart hopened _ chunk).trans
        (congrArg Except.ok (ofFed_endedBy hopened.coherent hrunning hended hchunk rest))

@[simp] theorem Simulation.actions_behindReset (recovery : Recovery) (seen : Bytes) (more : Bool)
    (sim : Simulation) : (sim.behindReset recovery seen more).actions = sim.actions := by
  cases recovery <;> rfl

@[simp] theorem Simulation.outgoing_behindReset (recovery : Recovery) (seen : Bytes) (more : Bool)
    (sim : Simulation) : (sim.behindReset recovery seen more).outgoing = sim.outgoing := by
  cases recovery <;> rfl

/-- **What a simulation reports does not depend on the size of the pieces, but for what follows a
hard reset.**  For any two sizes it performs the same actions and sends the same bytes, and if no
hard reset is among the actions, it also counts the same and stops, or does not, with the same
error.

What is sent can always be read, so that a simulation fails exactly with the error that stopped the
stream; without a reset the exit code is the same, too.

If there is a hard reset, some front of the stream completes it.  In pieces of any size that front
comes to the same, without an error.  Of what follows, the bytes in the piece with the last byte of
the front are received and not carried out: messages are counted, and bytes that are no tags are
dropped, or stop the stream.  If that is not all of the stream, and has not stopped it, the next
piece is refused. -/
theorem simulate_pieces (settings : Settings) (stream : Bytes) (high : List UInt8)
    (hroom : 17 ≤ settings.queueCapacity.toNat) :
    (∀ first second, 0 < first → 0 < second →
      ∃ a b : Simulation, simulate settings stream first high = .ok a ∧
        simulate settings stream second high = .ok b ∧
        a.actions = b.actions ∧ a.outgoing = b.outgoing ∧
        (Action.hardReset ∉ a.actions → a = b)) ∧
    (∀ chunk sim, 0 < chunk → simulate settings stream chunk high = .ok sim →
      simulationFailure sim (listOutgoing sim.outgoing).2
        = sim.error.map (.ofSession "stream rejected")) ∧
    ∀ chunk sim, 0 < chunk → simulate settings stream chunk high = .ok sim →
      Action.hardReset ∈ sim.actions →
      ∃ (front rest : Bytes) (base : Simulation), front ++ rest = stream ∧
        base.ResetBy settings high front ∧
        ∀ size, 0 < size →
          let seen := Wire.pieceRest size front rest
          simulate settings stream size high
            = .ok (base.behindReset settings.recovery seen (seen ≠ rest)) := by
  refine ⟨?_, ?_, ?_⟩
  · intro first second hfirst hsecond
    rcases simulate_cases settings stream high hroom with
      ⟨whole, -, hsame⟩ | ⟨front, rest, base, -, hreset, hpieces⟩
    · exact ⟨whole, whole, hsame first hfirst, hsame second hsecond, rfl, rfl, fun _ => rfl⟩
    · refine ⟨_, _, hpieces first hfirst, hpieces second hsecond, ?_, ?_, fun hnone => ?_⟩
      · rw [Simulation.actions_behindReset, Simulation.actions_behindReset]
      · rw [Simulation.outgoing_behindReset, Simulation.outgoing_behindReset]
      · rw [Simulation.actions_behindReset] at hnone
        exact absurd hreset.reset hnone
  · intro chunk sim _ hsim
    obtain ⟨sim', hsim', hwhole⟩ := simulate_whole settings stream chunk high hroom
    rw [hsim] at hsim'
    cases hsim'
    unfold simulationFailure
    rw [listOutgoing_whole hwhole]
    cases sim.error <;> rfl
  · intro chunk sim hchunk hsim hmem
    rcases simulate_cases settings stream high hroom with ⟨whole, hnone, hsame⟩ | hreset
    · rw [hsame chunk hchunk] at hsim
      cases hsim
      exact absurd hmem hnone
    · exact hreset

/-- The theorem for a stream with a message behind the reset, in one piece and in two. -/
theorem simulate_pieces_of_standard :
    17 ≤ Settings.standard.queueCapacity.toNat ∧
      ∃ a b : Simulation,
        simulate .standard [0x01, 0x00, 0x49, 0x4F, 0x49, 0x4F, 0x01] 7 [3] = .ok a ∧
        simulate .standard [0x01, 0x00, 0x49, 0x4F, 0x49, 0x4F, 0x01] 6 [3] = .ok b ∧
        a.actions = b.actions ∧ a.outgoing = b.outgoing := by
  have hroom : 17 ≤ Settings.standard.queueCapacity.toNat := by decide
  obtain ⟨hsame, -, -⟩ :=
    simulate_pieces .standard [0x01, 0x00, 0x49, 0x4F, 0x49, 0x4F, 0x01] [3] hroom
  obtain ⟨a, b, ha, hb, hactions, houtgoing, -⟩ := hsame 7 6 (by decide) (by decide)
  exact ⟨hroom, a, b, ha, hb, hactions, houtgoing⟩

/-- The counts and the error do depend on the size: a message behind the reset is counted in one
piece with it, and refused in the next, and the exit code tells. -/
theorem simulate_behind_reset_differs :
    let outcome (chunk : Nat) : Option (Nat × Option SessionError × Option Nat) :=
      (simulate .standard [0x00, 0x49, 0x4F, 0x49, 0x4F, 0x01] chunk []).toOption.map fun sim =>
        (sim.decoded, sim.error,
          (simulationFailure sim (listOutgoing sim.outgoing).2).map Failure.code)
    17 ≤ Settings.standard.queueCapacity.toNat ∧
      outcome 6 = some (2, none, none) ∧
      outcome 5 = some (1, some (.stream .halted), some 60) := by
  decide +kernel

end Tool
end PinBridge
