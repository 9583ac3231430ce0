/-
PinBridge/Proofs/Receiver/Reachable.lean

What a receiver can become, whatever it is fed.

Cursor, phase and buffer of a receiver belong together.  `Sound` says how, part
by part, and holds also between two turns, when the current part may need no
further byte.  A receiver that waits for input is `Coherent`: it is sound, it
needs at least one byte, and if it is halted it holds nothing.

Main statement: `Reachable.coherent`.  It rests on one lemma for each thing
that a pass does: copying bytes (`Sound.absorb`), turning to the next part
(`Sound.turn`), handing over and failing (`Coherent.deliver`, `Coherent.fail`).
-/
import PinBridge.Receiver.Basic

namespace PinBridge

namespace Receiver

variable {d : Direction} {ε σ : Type} {ofStream : StreamError → ε} {handle : Handler d ε σ}

/-! ### The invariant -/

/-- How cursor, phase and buffer belong together. -/
inductive Sound (d : Direction) (r : Receiver) : Prop
  | tag (hphase : r.phase = .tag) (hkind : r.kind = none) (hcursor : r.cursor + r.remaining = 1)
  | block (kind : Kind) (hphase : r.phase = .block) (hkind : r.kind = some kind)
      (htag : r.buffer.cellAt 0 = kind.tag) (hcursor : 1 ≤ r.cursor)
      (hend : r.cursor + r.remaining = 1 + kind.blockLength d)
  | trailer (kind : Kind) (hphase : r.phase = .trailer) (hkind : r.kind = some kind)
      (htag : r.buffer.cellAt 0 = kind.tag) (hblock : r.blockEnd = 1 + kind.blockLength d)
      (hcursor : r.blockEnd ≤ r.cursor)
      (hend : r.cursor + r.remaining
        = r.blockEnd + d.trailerLength kind (r.buffer.slice 1 r.blockEnd))

/-- The invariant of a receiver that waits for input. -/
structure Coherent (d : Direction) (r : Receiver) : Prop where
  sound : Sound d r
  remaining_pos : 0 < r.remaining
  cursor_of_halted : r.halted = true → r.cursor = 0

/-- What the current part still needs fits into the buffer. -/
theorem Sound.fits {r : Receiver} (h : Sound d r) :
    r.cursor + r.remaining ≤ Wire.longestMessage := by
  have hbounds : Wire.longestMessage = 1 + Wire.longestBlock + Wire.longestTrailer := rfl
  cases h with
  | tag _ _ hcursor => omega
  | block kind _ _ _ _ hend =>
    have := kind.blockLength_le d
    omega
  | trailer kind _ _ _ hblock _ hend =>
    have := kind.blockLength_le d
    have := d.trailerLength_le kind (r.buffer.slice 1 r.blockEnd)
    omega

/-- The kind that is stored is the one that block and trailer are read with. -/
theorem currentKind_of_kind {r : Receiver} {kind : Kind} (hkind : r.kind = some kind) :
    r.currentKind = kind := by
  rw [currentKind, hkind, Option.getD_some]

/-! ### What a pass does -/

/-- Bytes that the current part needs keep the receiver sound. -/
theorem Sound.absorb {r : Receiver} {bs : Bytes} (h : Sound d r) (hbs : bs.length ≤ r.remaining) :
    Sound d (r.absorb bs) := by
  cases h with
  | tag hphase hkind hcursor =>
    refine .tag hphase hkind ?_
    show r.cursor + bs.length + (r.remaining - bs.length) = 1
    omega
  | block kind hphase hkind htag hcursor hend =>
    refine .block kind hphase hkind ?_ ?_ ?_
    · exact (Buffer.cellAt_write_of_lt hcursor).trans htag
    · exact Nat.le_add_right_of_le hcursor
    · show r.cursor + bs.length + (r.remaining - bs.length) = 1 + kind.blockLength d
      omega
  | trailer kind hphase hkind htag hblock hcursor hend =>
    have hslice : (r.absorb bs).buffer.slice 1 r.blockEnd = r.buffer.slice 1 r.blockEnd :=
      Buffer.slice_write_of_le hcursor
    refine .trailer kind hphase hkind ?_ hblock ?_ ?_
    · exact (Buffer.cellAt_write_of_lt (by omega)).trans htag
    · exact Nat.le_add_right_of_le hcursor
    · show r.cursor + bs.length + (r.remaining - bs.length)
        = r.blockEnd + d.trailerLength kind ((r.absorb bs).buffer.slice 1 r.blockEnd)
      rw [hslice]
      omega

/-- Turning from a complete part to the next one keeps the receiver sound. -/
theorem Sound.turn {r r' : Receiver} (h : Sound d r) (hzero : r.remaining = 0)
    (hturn : r.turn d = .onward r') : Sound d r' := by
  cases h with
  | tag hphase hkind hcursor =>
    simp only [Receiver.turn, hphase] at hturn
    split at hturn
    · cases hturn
    next kind htag =>
      cases hturn
      refine .block kind rfl rfl (Kind.ofTag?_eq_some_iff.1 htag) ?_ ?_
      · show 1 ≤ r.cursor
        omega
      · show r.cursor + kind.blockLength d = 1 + kind.blockLength d
        omega
  | block kind hphase hkind htag hcursor hend =>
    simp only [Receiver.turn, hphase] at hturn
    cases hturn
    refine .trailer kind rfl hkind htag ?_ (Nat.le_refl _) ?_
    · show r.cursor = 1 + kind.blockLength d
      omega
    · show r.cursor + d.trailerLength r.currentKind _ = r.cursor + d.trailerLength kind _
      rw [currentKind_of_kind hkind]
  | trailer kind hphase hkind htag hblock hcursor hend =>
    simp only [Receiver.turn, hphase] at hturn
    cases hturn

/-- A turn touches neither the halt nor the counters. -/
theorem halted_of_turn {r r' : Receiver} (hturn : r.turn d = .onward r') :
    r'.halted = r.halted := by
  unfold Receiver.turn at hturn
  split at hturn
  · split at hturn
    · cases hturn
    · cases hturn
      rfl
  · cases hturn
    rfl
  · cases hturn

/-- Between two messages a receiver is coherent. -/
theorem coherent_of_restart {r : Receiver} (h : r.restart = r) : Coherent d r := by
  rw [← h]
  exact ⟨.tag rfl rfl rfl, Nat.one_pos, fun _ => rfl⟩

/-- The receiver that a step leaves behind, whether the step fails or not. -/
def left : EStateM.Result ε (Receiver × σ) Unit → Receiver
  | .ok _ (r, _) => r
  | .error _ (r, _) => r

/-- A failure leaves a coherent receiver. -/
theorem Coherent.fail (r : Receiver) (e : ε) (s : σ) : Coherent d (left (r.fail e s)) := by
  unfold Receiver.fail
  cases r.recovery with
  | abort => exact coherent_of_restart rfl
  | resync => exact coherent_of_restart rfl

/-- Handing a message over leaves a coherent receiver. -/
theorem Coherent.deliver (received : Received d) (r : Receiver) (s : σ) :
    Coherent d (left (r.deliver handle received s)) := by
  unfold Receiver.deliver
  cases handle received s with
  | ok _ s' => exact coherent_of_restart rfl
  | error e s' => exact Coherent.fail _ e s'

/-- Turn after turn, a sound receiver becomes a coherent one. -/
theorem Sound.advance {r : Receiver} {s : σ} (h : Sound d r) (hhalted : r.halted = false) :
    Coherent d (left (advance ofStream handle r s)) := by
  fun_induction Receiver.advance ofStream handle r s with
  | case1 r hzero r' hturn ih =>
    exact ih (h.turn hzero hturn) ((halted_of_turn hturn).trans hhalted)
  | case2 r hzero received hturn => exact Coherent.deliver received r s
  | case3 r hzero tag hturn => exact Coherent.fail r _ s
  | case4 r hpos =>
    refine ⟨h, Nat.pos_of_ne_zero hpos, fun hcontra => ?_⟩
    rw [left, hhalted] at hcontra
    cases hcontra

/-- A pass that does not fail leaves a coherent receiver. -/
theorem Sound.coherent_of_advance {r r' : Receiver} {s s' : σ} (h : Sound d r)
    (hhalted : r.halted = false) (hpass : Receiver.advance ofStream handle r s = .ok () (r', s')) :
    Coherent d r' := by
  have hleft : Coherent d (left (Receiver.advance ofStream handle r s)) := h.advance hhalted
  rw [hpass] at hleft
  exact hleft

/-- A failure that does not stop the receiver leaves it running. -/
theorem halted_of_fail {r r' : Receiver} {e : ε} {s s' : σ}
    (h : r.fail e s = .ok () (r', s')) : r'.halted = r.halted := by
  unfold Receiver.fail at h
  split at h
  · cases h
  · cases h
    rfl

/-- A message that does not stop the receiver leaves it running. -/
theorem halted_of_deliver {received : Received d} {r r' : Receiver} {s s' : σ}
    (h : r.deliver handle received s = .ok () (r', s')) : r'.halted = r.halted := by
  unfold Receiver.deliver at h
  split at h
  · cases h
    rfl
  · exact (halted_of_fail h).trans rfl

/-- A pass that does not stop the receiver leaves it running. -/
theorem halted_of_advance {r r' : Receiver} {s s' : σ}
    (h : Receiver.advance ofStream handle r s = .ok () (r', s')) : r'.halted = r.halted := by
  fun_induction Receiver.advance ofStream handle r s with
  | case1 r hzero r₁ hturn ih => exact (ih h).trans (halted_of_turn hturn)
  | case2 r hzero received hturn => exact halted_of_deliver h
  | case3 r hzero tag hturn => exact halted_of_fail h
  | case4 r hpos =>
    cases h
    rfl

/-- Any run of bytes leaves a coherent receiver. -/
theorem Coherent.consume {bs : Bytes} {r : Receiver} {s : σ} (h : Coherent d r)
    (hhalted : r.halted = false) : Coherent d (left (consume ofStream handle bs r s)) := by
  fun_induction Receiver.consume ofStream handle bs r s with
  | case1 bs r s hempty => exact h
  | case2 bs r s hbs r' s' hpass ih =>
    have hsound : Sound d (r.absorb (bs.take r.remaining)) :=
      h.sound.absorb (List.length_take_le r.remaining bs)
    exact ih (hsound.coherent_of_advance hhalted hpass) ((halted_of_advance hpass).trans hhalted)
  | case3 bs r s hbs e stopped hpass =>
    have hsound : Sound d (r.absorb (bs.take r.remaining)) :=
      h.sound.absorb (List.length_take_le r.remaining bs)
    have hleft : Coherent d (left (advance ofStream handle (r.absorb (bs.take r.remaining)) s)) :=
      hsound.advance hhalted
    rw [hpass] at hleft
    exact hleft

/-! ### Reachable receivers -/

/-- What a receiver can become: it is fed chunks, with whatever handler, reset and halted. -/
inductive Reachable (d : Direction) : Receiver → Prop
  | new (recovery : Recovery) : Reachable d (.new recovery)
  | feed {ε σ : Type} (ofStream : StreamError → ε) (handle : Handler d ε σ) (chunk : Bytes)
      {r : Receiver} (s : σ) :
      Reachable d r → Reachable d (left (feed ofStream handle chunk (r, s)))
  | reset {r : Receiver} : Reachable d r → Reachable d r.reset
  | halt {r : Receiver} : Reachable d r → Reachable d r.halt

/-- **Every receiver that can be reached is coherent.** -/
theorem Reachable.coherent {r : Receiver} (h : Reachable d r) : Coherent d r := by
  induction h with
  | new recovery => exact coherent_of_restart rfl
  | @feed ε σ ofStream handle chunk r s hr ih =>
    cases hhalted : r.halted with
    | true =>
      rw [feed_of_halted hhalted]
      exact ih
    | false =>
      rw [feed_of_running hhalted]
      exact ih.consume hhalted
  | reset hr ih => exact coherent_of_restart rfl
  | halt hr ih => exact coherent_of_restart rfl

end Receiver
end PinBridge
