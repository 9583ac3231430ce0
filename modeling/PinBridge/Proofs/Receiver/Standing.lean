/-
PinBridge/Proofs/Receiver/Standing.lean

What a receiver does depends on how it recovers, on whether it is halted, and on
the bytes that it holds, and on nothing else.

A receiver that can be reached is what a receiver between two messages becomes
when it is fed the bytes that are held (`Reachable.consume_held`).  So a chunk
does to it what these bytes and the chunk do to a receiver between two messages,
and that one cuts them as the rules of `Segmented` say.  The rules look neither
at what earlier messages have left in the buffer nor at the counters.

Main statement: `standing_feed`.
-/
import PinBridge.Proofs.Receiver.Handled
import PinBridge.Proofs.Receiver.Stream

namespace PinBridge

/-- Writing the first cells once more changes nothing. -/
theorem Buffer.write_slice (buffer : Buffer) {stop : Nat} (h : stop ≤ Wire.longestMessage) :
    buffer.write 0 (buffer.slice 0 stop) = buffer := by
  have hlength : (buffer.slice 0 stop).length = stop := Buffer.length_slice h
  have hcells : buffer.slice 0 stop = buffer.cells.take stop := rfl
  ext1
  rw [Buffer.cells_write (by omega), hlength, hcells, List.take_zero, List.nil_append,
    Nat.zero_add, List.take_append_drop]

namespace Receiver

variable {d : Direction} {ε σ : Type} {ofStream : StreamError → ε} {handle : Handler d ε σ}
  {r r' : Receiver}

/-! ### What is held -/

/-- What is held is a tag and a part of the block. -/
theorem held_eq_cons {kind : Kind} (htag : r.buffer.cellAt 0 = kind.tag) (hcursor : 1 ≤ r.cursor)
    (hfits : r.cursor ≤ Wire.longestMessage) :
    r.held = kind.tag :: r.buffer.slice 1 r.cursor := by
  rw [held, ← Buffer.slice_append (Nat.zero_le 1) hcursor hfits, Buffer.slice_zero_one, htag,
    List.singleton_append]

/-- **A reachable receiver is what the bytes it holds make of one between two messages.** -/
theorem Reachable.consume_held (h : Reachable d r) (s : σ) :
    consume ofStream handle r.held r.restart s = .ok () (r, s) := by
  have hpositive : 0 < r.remaining := h.coherent.remaining_pos
  have hfits : r.cursor ≤ Wire.longestMessage := by
    have := h.coherent.sound.fits
    omega
  have hbuffer : r.buffer.write 0 r.held = r.buffer := Buffer.write_slice r.buffer hfits
  cases h.coherent.sound with
  | tag hphase hkind hcursor =>
    have hzero : r.cursor = 0 := by omega
    have hheld : r.held = [] := by
      rw [held, hzero]
      rfl
    rw [hheld, consume_nil, h.restart_eq hzero]
  | block kind hphase hkind htag hcursor hend =>
    have hheld : r.held = kind.tag :: r.buffer.slice 1 r.cursor := held_eq_cons htag hcursor hfits
    have hlength : (r.buffer.slice 1 r.cursor).length = r.cursor - 1 := Buffer.length_slice hfits
    have hblockEnd : r.blockEnd = 0 := h.blockEnd_eq_zero (by rw [hphase]; exact Phase.noConfusion)
    have hsame : r.restart.inBlock d kind (r.buffer.slice 1 r.cursor) = r := by
      have hremaining : kind.blockLength d - (r.buffer.slice 1 r.cursor).length = r.remaining := by
        omega
      have hend : 1 + (r.buffer.slice 1 r.cursor).length = r.cursor := by omega
      rw [inBlock, hremaining, hend, ← hheld, ← hphase, ← hkind]
      show { r with blockEnd := 0, buffer := r.buffer.write 0 r.held } = r
      rw [hbuffer, ← hblockEnd]
    rw [hheld, consume_inBlock (by omega), hsame]
  | trailer kind hphase hkind htag hblock hcursor hend =>
    have hblockFits : r.blockEnd ≤ Wire.longestMessage := Nat.le_trans hcursor hfits
    have hone : 1 ≤ r.blockEnd := by omega
    have hlength : (r.buffer.slice 1 r.blockEnd).length = r.blockEnd - 1 :=
      Buffer.length_slice hblockFits
    have hrest : (r.buffer.slice r.blockEnd r.cursor).length = r.cursor - r.blockEnd :=
      Buffer.length_slice hfits
    have hheld : r.held
        = kind.tag :: r.buffer.slice 1 r.blockEnd ++ r.buffer.slice r.blockEnd r.cursor := by
      rw [held_eq_cons htag (Nat.le_trans hone hcursor) hfits, List.cons_append,
        Buffer.slice_append hone hcursor hfits]
    have hsame : r.restart.inTrailer d kind (r.buffer.slice 1 r.blockEnd)
        (r.buffer.slice r.blockEnd r.cursor) = r := by
      have hremaining : d.trailerLength kind (r.buffer.slice 1 r.blockEnd)
          - (r.buffer.slice r.blockEnd r.cursor).length = r.remaining := by omega
      have hblockEnd : 1 + (r.buffer.slice 1 r.blockEnd).length = r.blockEnd := by omega
      have hend : r.blockEnd + (r.buffer.slice r.blockEnd r.cursor).length = r.cursor := by omega
      rw [inTrailer, hremaining, hblockEnd, hend, ← hheld, ← hphase, ← hkind]
      show { r with buffer := r.buffer.write 0 r.held } = r
      rw [hbuffer]
    rw [hheld, consume_inTrailer (by omega) (by omega), hsame]

/-- A chunk does to a receiver what the bytes it holds and the chunk do between two messages. -/
theorem Reachable.consume_eq_restart (h : Reachable d r) (hhalted : r.halted = false)
    (chunk : Bytes) (s : σ) :
    consume ofStream handle chunk r s = consume ofStream handle (r.held ++ chunk) r.restart s := by
  have hbetween : Coherent d r.restart := coherent_of_restart rfl
  rw [consume_append hbetween hhalted, h.consume_held, andThen_ok]

/-! ### What decides -/

/-- What decides what a receiver does. -/
structure Standing where
  recovery : Recovery
  halted : Bool
  held : Bytes
  deriving DecidableEq, Repr

def standing (r : Receiver) : Standing := ⟨r.recovery, r.halted, r.held⟩

@[simp] theorem standing_halt (r : Receiver) : r.halt.standing = ⟨r.recovery, true, []⟩ := rfl

/-- A result with the standing of the receiver in the receiver's place. -/
def placed : EStateM.Result ε (Receiver × σ) Unit → EStateM.Result ε (Standing × σ) Unit :=
  mapState (Prod.map standing id)

/-- The standing, read off the tally. -/
theorem placed_eq {result : EStateM.Result ε (Receiver × σ) Unit} {recovery : Recovery}
    (h : (left result).recovery = recovery) :
    placed result = mapState (Prod.map (fun t : Tally => ⟨recovery, t.halted, t.held⟩) id)
      (tallied result) := by
  subst h
  cases result <;> rfl

/-- Between two messages only the way of recovery matters, and whether the receiver is halted. -/
theorem placed_consume_restart (hrecovery : r.recovery = r'.recovery)
    (hhalted : r.halted = r'.halted) (bs : Bytes) (s : σ) :
    placed (consume ofStream handle bs r.restart s)
      = placed (consume ofStream handle bs r'.restart s) := by
  have hsettled : Settled d (·.recovery = r.recovery) := settled_recovery r.recovery
  have hleft : (left (consume ofStream handle bs r.restart s)).recovery = r.recovery :=
    hsettled.consume (r := r.restart) rfl bs s
  have hleft' : (left (consume ofStream handle bs r'.restart s)).recovery = r.recovery :=
    hsettled.consume (r := r'.restart) hrecovery.symm bs s
  rw [placed_eq hleft, placed_eq hleft']
  cases hcase : r.recovery with
  | resync =>
    rw [consume_of_resync ofStream handle (segmented d bs) hcase,
      consume_of_resync ofStream handle (segmented d bs) (hrecovery.symm.trans hcase), hhalted]
    rfl
  | abort =>
    rw [consume_of_abort ofStream handle (segmented d bs) hcase,
      consume_of_abort ofStream handle (segmented d bs) (hrecovery.symm.trans hcase), hhalted]
    cases (segmentation d bs).segments.forM (Segment.play ofStream handle) s <;> rfl

/-- **Receivers with the same standing do the same with a chunk**: they hand over the same messages
and fail alike, and they have the same standing afterwards. -/
theorem standing_feed (h : Reachable d r) (h' : Reachable d r') (hsame : r.standing = r'.standing)
    (chunk : Bytes) (s : σ) :
    placed (feed ofStream handle chunk (r, s)) = placed (feed ofStream handle chunk (r', s)) := by
  have hrecovery : r.recovery = r'.recovery := congrArg Standing.recovery hsame
  have hhalted : r.halted = r'.halted := congrArg Standing.halted hsame
  have hheld : r.held = r'.held := congrArg Standing.held hsame
  cases hcase : r.halted with
  | true =>
    rw [feed_of_halted hcase, feed_of_halted (hhalted.symm.trans hcase)]
    show EStateM.Result.error _ (r.standing, s) = .error _ (r'.standing, s)
    rw [hsame]
  | false =>
    have hcase' : r'.halted = false := hhalted.symm.trans hcase
    rw [feed_of_running hcase, feed_of_running hcase', h.consume_eq_restart hcase,
      h'.consume_eq_restart hcase', hheld]
    exact placed_consume_restart hrecovery hhalted _ s

end Receiver
end PinBridge
