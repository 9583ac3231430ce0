/-
PinBridge/Proofs/Receiver/Careful.lean

A receiver never reaches beyond its buffer.

Nothing in a receiver can go wrong: a write that does not fit is left out, a
slice that ends behind the buffer is cut short, and a message is read from
whatever block and trailer are there.  The careful receiver (`Careful.feed`)
moves as the receiver does, but it looks first, and gives up where something is
not as it should be (`Breach`).  It allows three turns for the parts of a
message and no more, and no pass that takes nothing.

A receiver that can be reached never runs into any of this
(`kept_in_bounds`).  Each function of the careful receiver has one equation,
which says that it does what the receiver does if the receiver is sound:
`absorb_eq`, `turn_eq`, `advance_eq`, `consume_eq`, `feed_eq`.
-/
import PinBridge.Proofs.Receiver.Handled

namespace PinBridge

/-- A message has three parts, and two follow the first. -/
theorem Phase.partsLeft_lt_three (phase : Phase) : phase.partsLeft < 3 := by
  cases phase <;> decide

/-- What a careful receiver gives up at. -/
inductive Breach where
  /-- Cells are read or written that are not all in the buffer. -/
  | outside
  /-- More bytes are taken than the current part needs. -/
  | overfull
  /-- A block or a trailer is read of a message whose kind is not stored. -/
  | noKind
  /-- A block is not as long as its kind has it, or a trailer not as long as its block says. -/
  | wrongLength
  /-- A pass over a chunk takes no byte of it. -/
  | idlePass
  /-- A pass goes on after three turns. -/
  | fourthTurn
  deriving DecidableEq, Repr

namespace Careful

variable {d : Direction} {ε σ : Type}

/-! ### The careful receiver -/

/-- Go on if the condition holds. -/
def require (p : Prop) [Decidable p] (breach : Breach) : Except Breach Unit :=
  if p then .ok () else .error breach

/-- The cell at position `i`. -/
def cell (buffer : Buffer) (i : Nat) : Except Breach UInt8 := do
  require (i < buffer.cells.length) .outside
  return buffer.cellAt i

/-- The cells from position `start` up to position `stop`. -/
def slice (buffer : Buffer) (start stop : Nat) : Except Breach Bytes := do
  require (start ≤ stop ∧ stop ≤ buffer.cells.length) .outside
  return buffer.slice start stop

/-- Copy bytes to where the cursor stands. -/
def absorb (r : Receiver) (bs : Bytes) : Except Breach Receiver := do
  require (bs.length ≤ r.remaining) .overfull
  require (r.cursor + bs.length ≤ r.buffer.cells.length) .outside
  return r.absorb bs

/-- The kind of the message under way. -/
def storedKind (r : Receiver) : Except Breach Kind :=
  match r.kind with
  | some kind => .ok kind
  | none => .error .noKind

/-- How long a trailer the fixed block announces. -/
def trailerLength (d : Direction) (kind : Kind) (block : Bytes) : Except Breach Nat := do
  require (block.length = kind.blockLength d) .wrongLength
  return d.trailerLength kind block

/-- The message that a fixed block and a trailer hold. -/
def parse (d : Direction) (kind : Kind) (block trailer : Bytes) : Except Breach d.Message := do
  require (block.length = kind.blockLength d) .wrongLength
  require (trailer.length = d.trailerLength kind block) .wrongLength
  return d.parse kind block trailer

/-- The current part is complete: turn to what follows it. -/
def turn (d : Direction) (r : Receiver) : Except Breach (Turn d) :=
  match r.phase with
  | .tag => do
    let tag ← cell r.buffer 0
    match Kind.ofTag? tag with
    | none => return .unknown tag
    | some kind =>
      return .onward { r with kind := some kind, phase := .block, remaining := kind.blockLength d }
  | .block => do
    let kind ← storedKind r
    let block ← slice r.buffer 1 r.cursor
    let remaining ← trailerLength d kind block
    return .onward { r with blockEnd := r.cursor, phase := .trailer, remaining }
  | .trailer => do
    let kind ← storedKind r
    let block ← slice r.buffer 1 r.blockEnd
    let trailer ← slice r.buffer r.blockEnd r.cursor
    let message ← parse d kind block trailer
    let wire ← slice r.buffer 0 r.cursor
    return .complete { message, wire }

section Feed

variable (ofStream : StreamError → ε) (handle : Handler d ε σ)

/-- Turn from part to part, as long as the current one needs no further byte, but not more often
than `turns` times. -/
def advance : (turns : Nat) → Receiver → σ →
    Except Breach (EStateM.Result ε (Receiver × σ) Unit)
  | 0, r, s => do
    require (r.remaining ≠ 0) .fourthTurn
    return .ok () (r, s)
  | turns + 1, r, s =>
    if r.remaining = 0 then do
      match ← turn d r with
      | .onward r' => advance turns r' s
      | .complete received => return r.deliver handle received s
      | .unknown tag => return r.fail (ofStream (.unknownTag tag)) s
    else return .ok () (r, s)

/-- Take bytes, up to the first failure that stops the receiver. -/
def consume (bs : Bytes) (r : Receiver) (s : σ) :
    Except Breach (EStateM.Result ε (Receiver × σ) Unit) :=
  if bs = [] then return .ok () (r, s)
  else if bs.take r.remaining = [] then .error .idlePass
  else do
    let filled ← absorb r (bs.take r.remaining)
    match ← advance ofStream handle 3 filled s with
    | .ok () (r', s') => consume (bs.drop r.remaining) r' s'
    | .error e stopped => return .error e stopped
termination_by bs.length
decreasing_by
  -- what a pass takes is not there for the next one
  rename_i htake
  have hlength : (bs.take r.remaining).length ≠ 0 := by simpa using htake
  rw [List.length_take] at hlength
  rw [List.length_drop]
  omega

/-- Take a chunk.  A halted receiver refuses even an empty one. -/
def feed (chunk : Bytes) (r : Receiver) (s : σ) :
    Except Breach (EStateM.Result ε (Receiver × σ) Unit) :=
  if r.halted then return .error (ofStream .halted) (r, s)
  else consume ofStream handle chunk r s

end Feed

/-! ### It does what the receiver does -/

variable {ofStream : StreamError → ε} {handle : Handler d ε σ} {r : Receiver} {s : σ}

theorem require_of {p : Prop} [Decidable p] (h : p) (breach : Breach) :
    require p breach = .ok () := if_pos h

theorem ok_bind {α β : Type} (a : α) (f : α → Except Breach β) : (Except.ok a >>= f) = f a := rfl

theorem cell_eq {buffer : Buffer} {i : Nat} (h : i < Wire.longestMessage) :
    cell buffer i = .ok (buffer.cellAt i) := by
  rw [cell, require_of (buffer.length_cells.symm ▸ h)]
  rfl

theorem slice_eq {buffer : Buffer} {start stop : Nat} (hstart : start ≤ stop)
    (hstop : stop ≤ Wire.longestMessage) :
    slice buffer start stop = .ok (buffer.slice start stop) := by
  rw [slice, require_of ⟨hstart, buffer.length_cells.symm ▸ hstop⟩]
  rfl

/-- Bytes that the current part needs fit into the buffer. -/
theorem absorb_eq (h : r.Sound d) {bs : Bytes} (hbs : bs.length ≤ r.remaining) :
    absorb r bs = .ok (r.absorb bs) := by
  have hfits : r.cursor + bs.length ≤ r.buffer.cells.length := by
    have := h.fits
    rw [r.buffer.length_cells]
    omega
  rw [absorb, require_of hbs, require_of hfits]
  rfl

theorem storedKind_eq {k : Kind} (hkind : r.kind = some k) : storedKind r = .ok k := by
  rw [storedKind, hkind]

theorem trailerLength_eq {k : Kind} {block : Bytes} (hblock : block.length = k.blockLength d) :
    trailerLength d k block = .ok (d.trailerLength k block) := by
  rw [trailerLength, require_of hblock]
  rfl

theorem parse_eq {k : Kind} {block trailer : Bytes} (hblock : block.length = k.blockLength d)
    (htrailer : trailer.length = d.trailerLength k block) :
    parse d k block trailer = .ok (d.parse k block trailer) := by
  rw [parse, require_of hblock, require_of htrailer]
  rfl

/-- **A complete part is read where it lies, and is as long as it has to be.** -/
theorem turn_eq (h : r.Sound d) (hzero : r.remaining = 0) : turn d r = .ok (r.turn d) := by
  have hfits : r.cursor ≤ Wire.longestMessage := by
    have := h.fits
    omega
  cases h with
  | tag hphase _ _ =>
    have hcell : cell r.buffer 0 = .ok (r.buffer.cellAt 0) := cell_eq (by decide)
    simp only [turn, Receiver.turn, hphase, hcell, ok_bind]
    cases Kind.ofTag? (r.buffer.cellAt 0) <;> rfl
  | block k hphase hkind _ hcursor hend =>
    have hblock : (r.buffer.slice 1 r.cursor).length = k.blockLength d := by
      rw [Buffer.length_slice hfits]
      omega
    simp only [turn, Receiver.turn, hphase, Receiver.currentKind_of_kind hkind, storedKind_eq hkind,
      slice_eq hcursor hfits, trailerLength_eq hblock, ok_bind]
    rfl
  | trailer k hphase hkind _ hblockEnd hcursor hend =>
    have hone : 1 ≤ r.blockEnd := by omega
    have hwithin : r.blockEnd ≤ Wire.longestMessage := Nat.le_trans hcursor hfits
    have hblock : (r.buffer.slice 1 r.blockEnd).length = k.blockLength d := by
      rw [Buffer.length_slice hwithin]
      omega
    have htrailer : (r.buffer.slice r.blockEnd r.cursor).length
        = d.trailerLength k (r.buffer.slice 1 r.blockEnd) := by
      rw [Buffer.length_slice hfits]
      omega
    simp only [turn, Receiver.turn, hphase, Receiver.currentKind_of_kind hkind, storedKind_eq hkind,
      slice_eq hone hwithin, slice_eq hcursor hfits, slice_eq (Nat.zero_le r.cursor) hfits,
      parse_eq hblock htrailer, ok_bind]
    rfl

/-- A receiver that is not sound does run into a breach. -/
example : turn .incoming { Receiver.new .abort with phase := .block } = .error .noKind := rfl

/-- What a careful receiver turns to is what the receiver turns to. -/
theorem advance_succ (h : r.Sound d) (hzero : r.remaining = 0) (turns : Nat) :
    advance ofStream handle (turns + 1) r s
      = match r.turn d with
        | .onward r' => advance ofStream handle turns r' s
        | .complete received => .ok (r.deliver handle received s)
        | .unknown tag => .ok (r.fail (ofStream (.unknownTag tag)) s) := by
  rw [advance, if_pos hzero, turn_eq h hzero, ok_bind]
  cases r.turn d <;> rfl

/-- **A part is turned to once at most.** -/
theorem advance_eq (h : r.Sound d) {turns : Nat} (hturns : r.phase.partsLeft < turns) :
    advance ofStream handle turns r s = .ok (Receiver.advance ofStream handle r s) := by
  obtain ⟨turns, rfl⟩ : ∃ n, turns = n + 1 := ⟨turns - 1, by omega⟩
  fun_induction Receiver.advance ofStream handle r s generalizing turns with
  | case1 r hzero r' hturn ih =>
    have hparts : r'.phase.partsLeft < r.phase.partsLeft := Receiver.partsLeft_of_turn hturn
    obtain ⟨turns, rfl⟩ : ∃ n, turns = n + 1 := ⟨turns - 1, by omega⟩
    rw [advance_succ h hzero, hturn]
    exact ih (h.turn hzero hturn) turns (by omega)
  | case2 r hzero received hturn => rw [advance_succ h hzero, hturn]
  | case3 r hzero tag hturn => rw [advance_succ h hzero, hturn]
  | case4 r hpos =>
    rw [advance, if_neg hpos]
    rfl

/-- A pass of the careful receiver, and the passes that follow. -/
theorem consume_cons {bs : Bytes} (hbs : bs ≠ []) (h : r.Coherent d) :
    consume ofStream handle bs r s
      = match Receiver.advance ofStream handle (r.absorb (bs.take r.remaining)) s with
        | .ok () (r', s') => consume ofStream handle (bs.drop r.remaining) r' s'
        | .error e stopped => .ok (.error e stopped) := by
  have htake : bs.take r.remaining ≠ [] := by
    rw [Ne, List.take_eq_nil_iff]
    exact not_or.2 ⟨Nat.ne_of_gt h.remaining_pos, hbs⟩
  have hlength : (bs.take r.remaining).length ≤ r.remaining := List.length_take_le r.remaining bs
  have hsound : (r.absorb (bs.take r.remaining)).Sound d := h.sound.absorb hlength
  rw [consume, if_neg hbs, if_neg htake, absorb_eq h.sound hlength, ok_bind,
    advance_eq hsound (Phase.partsLeft_lt_three _), ok_bind]
  cases Receiver.advance ofStream handle (r.absorb (bs.take r.remaining)) s <;> rfl

/-- **Pass after pass, bytes are taken without a breach.** -/
theorem consume_eq {bs : Bytes} (h : r.Coherent d) (hhalted : r.halted = false) :
    consume ofStream handle bs r s = .ok (Receiver.consume ofStream handle bs r s) := by
  fun_induction Receiver.consume ofStream handle bs r s with
  | case1 bs r s hempty =>
    rw [consume, if_pos (List.isEmpty_iff.1 hempty)]
    rfl
  | case2 bs r s hbs r' s' hpass ih =>
    have hsound : (r.absorb (bs.take r.remaining)).Sound d :=
      h.sound.absorb (List.length_take_le r.remaining bs)
    rw [consume_cons (by simpa using hbs) h, hpass]
    exact ih (hsound.coherent_of_advance hhalted hpass)
      ((Receiver.halted_of_advance hpass).trans hhalted)
  | case3 bs r s hbs e stopped hpass => rw [consume_cons (by simpa using hbs) h, hpass]

theorem feed_eq (h : r.Coherent d) (chunk : Bytes) :
    feed ofStream handle chunk r s = .ok (Receiver.feed ofStream handle chunk (r, s)) := by
  rw [feed, Receiver.feed]
  cases hhalted : r.halted with
  | true => rfl
  | false => exact consume_eq h hhalted

end Careful

/-! ### What can be reached -/

namespace Receiver

variable {d : Direction}

/-- How the fields of a receiver that waits for a chunk belong together. -/
structure WellFormed (d : Direction) (r : Receiver) : Prop where
  remaining_pos : 1 ≤ r.remaining
  fits : r.cursor + r.remaining ≤ 527
  tag_iff : r.phase = .tag ↔ r.cursor = 0
  tag : r.phase = .tag → r.remaining = 1 ∧ r.kind = none
  /-- The kind that is stored is the one whose tag the buffer begins with. -/
  kind : r.phase ≠ .tag →
    ∃ kind, r.kind = some kind ∧ Kind.ofTag? (r.buffer.cellAt 0) = some kind
  block : ∀ kind, r.phase = .block → r.kind = some kind →
    r.cursor + r.remaining = 1 + kind.blockLength d
  trailer : ∀ kind, r.phase = .trailer → r.kind = some kind →
    r.blockEnd = 1 + kind.blockLength d ∧
      r.cursor + r.remaining
        = r.blockEnd + d.trailerLength kind (r.buffer.slice 1 r.blockEnd)
  halted : r.halted = true → r.cursor = 0 ∧ r.held = []

/-- A coherent receiver is well formed: what its part does not speak of cannot be the case. -/
theorem Coherent.wellFormed {r : Receiver} (h : Coherent d r) : WellFormed d r := by
  have hpos : 1 ≤ r.remaining := h.remaining_pos
  have hhalted : r.halted = true → r.cursor = 0 ∧ r.held = [] := by
    intro hhalt
    have hzero : r.cursor = 0 := h.cursor_of_halted hhalt
    refine ⟨hzero, ?_⟩
    rw [held, hzero]
    rfl
  cases h.sound with
  | tag hphase hkind hcursor =>
    exact {
      remaining_pos := hpos
      fits := h.sound.fits
      tag_iff := iff_of_true hphase (by omega)
      tag := fun _ => ⟨by omega, hkind⟩
      kind := fun hother => absurd hphase hother
      block := fun _ hblock => absurd (hphase.symm.trans hblock) (by decide)
      trailer := fun _ htrailer => absurd (hphase.symm.trans htrailer) (by decide)
      halted := hhalted }
  | block k hphase hkind htag hcursor hend =>
    have hother : r.phase ≠ .tag := fun hcontra => absurd (hphase.symm.trans hcontra) (by decide)
    exact {
      remaining_pos := hpos
      fits := h.sound.fits
      tag_iff := iff_of_false hother (by omega)
      tag := fun hcontra => absurd hcontra hother
      kind := fun _ => ⟨k, hkind, Kind.ofTag?_eq_some_iff.2 htag⟩
      block := fun _ _ hstored => Option.some.inj (hkind.symm.trans hstored) ▸ hend
      trailer := fun _ htrailer => absurd (hphase.symm.trans htrailer) (by decide)
      halted := hhalted }
  | trailer k hphase hkind htag hblockEnd hcursor hend =>
    have hother : r.phase ≠ .tag := fun hcontra => absurd (hphase.symm.trans hcontra) (by decide)
    exact {
      remaining_pos := hpos
      fits := h.sound.fits
      tag_iff := iff_of_false hother (by omega)
      tag := fun hcontra => absurd hcontra hother
      kind := fun _ => ⟨k, hkind, Kind.ofTag?_eq_some_iff.2 htag⟩
      block := fun _ hblock => absurd (hphase.symm.trans hblock) (by decide)
      trailer := fun _ _ hstored => Option.some.inj (hkind.symm.trans hstored) ▸ ⟨hblockEnd, hend⟩
      halted := hhalted }

/-- **A receiver never reaches beyond its buffer**, whatever it has been fed, however its messages
were handled, and however often it was reset or halted.  It is well formed, and the careful receiver
does with any chunk what it does: every cell that is written or read is there, every block and every
trailer has its length, every pass takes a byte of the chunk and ends after three turns at most. -/
theorem kept_in_bounds {r : Receiver} (h : Reachable d r) :
    WellFormed d r ∧
      ∀ {ε σ : Type} (ofStream : StreamError → ε) (handle : Handler d ε σ) (chunk : Bytes) (s : σ),
        Careful.feed ofStream handle chunk r s = .ok (feed ofStream handle chunk (r, s)) := by
  refine ⟨h.coherent.wellFormed, fun ofStream handle chunk s => ?_⟩
  exact Careful.feed_eq h.coherent chunk

/-- A receiver with one byte of a trailer of four. -/
def underWay : Receiver := left (feed id takesOne [12, 2, 3, 7] (.new .resync, 0))

/-- The theorem for a receiver in the middle of a trailer.  The chunk completes the message, and a
byte that is no tag and a message that is refused follow. -/
theorem kept_in_bounds_underWay :
    Reachable .incoming underWay ∧ underWay.phase = .trailer ∧ underWay.blockEnd = 3 ∧
      underWay.remaining = 3 ∧ WellFormed .incoming underWay ∧
      Careful.feed id takesOne [8, 9, 10, 255, 1] underWay 0
        = .ok (feed id takesOne [8, 9, 10, 255, 1] (underWay, 0)) := by
  have hr : Reachable .incoming underWay := .feed id takesOne [12, 2, 3, 7] 0 (.new .resync)
  obtain ⟨hformed, hfeed⟩ := kept_in_bounds hr
  refine ⟨hr, by decide +kernel, by decide +kernel, by decide +kernel, hformed, ?_⟩
  exact hfeed id takesOne [8, 9, 10, 255, 1] 0

end Receiver
end PinBridge
