/-
PinBridge/Proofs/Receiver/Cut.lean

What a receiver does with one segment, and with a tail.

`inBlock` and `inTrailer` are the receiver that stood between two messages and
has taken a tag and a part of the block, or of the trailer.  With these two
names every pass can be computed: copying bytes goes from one of them to
another of the same part (`absorb_inBlock`, `absorb_inTrailer`), a turn goes to
the next part (`turn_tag`, `turn_inBlock`, `turn_inTrailer`).

Main statements: `consume_stray` and `consume_message`, a byte that is no tag
is one failure and a whole message is handed over once, and `consume_inBlock`
and `consume_inTrailer`, less than a whole message is kept.
-/
import PinBridge.Proofs.Receiver.Chunks
import PinBridge.Proofs.Receiver.Segments

namespace PinBridge
namespace Receiver

variable {d : Direction} {ε σ : Type} {ofStream : StreamError → ε} {handle : Handler d ε σ}

/-! ### Receivers in the middle of a message -/

/-- The receiver `r` after a tag and a part of the fixed block. -/
def inBlock (d : Direction) (r : Receiver) (kind : Kind) (taken : Bytes) : Receiver :=
  { r with
    phase := .block
    remaining := kind.blockLength d - taken.length
    cursor := 1 + taken.length
    kind := some kind
    buffer := r.buffer.write 0 (kind.tag :: taken) }

/-- The receiver `r` after a tag, the fixed block and a part of the trailer. -/
def inTrailer (d : Direction) (r : Receiver) (kind : Kind) (block taken : Bytes) : Receiver :=
  { r with
    phase := .trailer
    remaining := d.trailerLength kind block - taken.length
    cursor := 1 + block.length + taken.length
    blockEnd := 1 + block.length
    kind := some kind
    buffer := r.buffer.write 0 (kind.tag :: block ++ taken) }

theorem length_message (kind : Kind) (block trailer : Bytes) :
    (kind.tag :: block ++ trailer).length = 1 + block.length + trailer.length := by
  rw [List.length_append, List.length_cons, Nat.add_comm block.length 1]

/-- A block that is not too long leaves room in the buffer. -/
theorem length_inBlock_le {kind : Kind} {taken : Bytes} (h : taken.length ≤ kind.blockLength d) :
    (kind.tag :: taken).length ≤ Wire.longestMessage := by
  have hbound : taken.length ≤ Wire.longestBlock := Nat.le_trans h (kind.blockLength_le d)
  have hmessage : Wire.longestMessage = 1 + Wire.longestBlock + Wire.longestTrailer := rfl
  rw [List.length_cons]
  omega

/-- A whole message fits into the buffer. -/
theorem length_inTrailer_le {kind : Kind} {block taken : Bytes}
    (hblock : block.length = kind.blockLength d)
    (h : taken.length ≤ d.trailerLength kind block) :
    (kind.tag :: block ++ taken).length ≤ Wire.longestMessage := by
  have hbound : block.length ≤ Wire.longestBlock := hblock ▸ kind.blockLength_le d
  have htrailer : taken.length ≤ Wire.longestTrailer :=
    Nat.le_trans h (d.trailerLength_le kind block)
  have hmessage : Wire.longestMessage = 1 + Wire.longestBlock + Wire.longestTrailer := rfl
  rw [length_message]
  omega

/-! ### Copying -/

theorem absorb_inBlock {r : Receiver} {kind : Kind} {taken bs : Bytes}
    (h : (taken ++ bs).length ≤ kind.blockLength d) :
    (r.inBlock d kind taken).absorb bs = r.inBlock d kind (taken ++ bs) := by
  have hfits : 0 + (kind.tag :: taken ++ bs).length ≤ Wire.longestMessage := by
    rw [Nat.zero_add]
    exact length_inBlock_le h
  have hwrite := Buffer.write_write r.buffer hfits
  rw [List.length_cons, Nat.zero_add, Nat.add_comm taken.length 1] at hwrite
  simp only [inBlock, absorb, hwrite, List.length_append, List.cons_append, Nat.add_assoc,
    Nat.sub_sub]

theorem absorb_inTrailer {r : Receiver} {kind : Kind} {block taken bs : Bytes}
    (hblock : block.length = kind.blockLength d)
    (h : (taken ++ bs).length ≤ d.trailerLength kind block) :
    (r.inTrailer d kind block taken).absorb bs = r.inTrailer d kind block (taken ++ bs) := by
  have hfits : 0 + (kind.tag :: block ++ taken ++ bs).length ≤ Wire.longestMessage := by
    rw [Nat.zero_add, List.append_assoc]
    exact length_inTrailer_le hblock h
  have hwrite := Buffer.write_write r.buffer hfits
  rw [length_message, Nat.zero_add, List.append_assoc (kind.tag :: block)] at hwrite
  rw [absorb, inTrailer, hwrite, inTrailer, List.length_append]
  simp only [Nat.add_assoc, Nat.sub_sub]

/-! ### Turning -/

/-- A tag is followed by a block of which nothing is there. -/
theorem turn_tag (r : Receiver) (kind : Kind) :
    (r.restart.absorb [kind.tag]).turn d = .onward (r.restart.inBlock d kind []) := by
  have hcell : (r.buffer.write 0 [kind.tag]).cellAt 0 = kind.tag :=
    Buffer.cellAt_write (by decide : 1 ≤ Wire.longestMessage)
  simp only [turn, absorb, restart, hcell, Kind.ofTag?_tag]
  rfl

/-- A byte that is no tag is told as such. -/
theorem turn_stray (r : Receiver) {b : UInt8} (hb : 16 ≤ b.toNat) :
    (r.restart.absorb [b]).turn d = .unknown b := by
  have hcell : (r.buffer.write 0 [b]).cellAt 0 = b :=
    Buffer.cellAt_write (by decide : 1 ≤ Wire.longestMessage)
  simp only [turn, absorb, restart, hcell, Kind.ofTag?_eq_none_iff.2 hb]

/-- A whole block is followed by a trailer of which nothing is there. -/
theorem turn_inBlock {r : Receiver} {kind : Kind} {block : Bytes}
    (hblock : block.length = kind.blockLength d) :
    (r.inBlock d kind block).turn d = .onward (r.inTrailer d kind block []) := by
  have hslice : (r.buffer.write 0 (kind.tag :: block)).slice 1 (1 + block.length) = block := by
    have hfits : (kind.tag :: block).length ≤ Wire.longestMessage :=
      length_inBlock_le (Nat.le_of_eq hblock)
    rw [Nat.add_comm, ← List.length_cons (a := kind.tag), Buffer.slice_write hfits (Nat.le_refl _),
      List.take_length]
    rfl
  simp only [turn, inBlock, currentKind, Option.getD_some, hslice]
  simp [inTrailer]

/-- A whole trailer completes the message. -/
theorem turn_inTrailer {r : Receiver} {kind : Kind} {block trailer : Bytes}
    (hblock : block.length = kind.blockLength d)
    (htrailer : trailer.length = d.trailerLength kind block) :
    (r.inTrailer d kind block trailer).turn d
      = .complete ⟨d.parse kind block trailer, (Segment.message kind block trailer).bytes⟩ := by
  have hfits : (kind.tag :: block ++ trailer).length ≤ Wire.longestMessage :=
    length_inTrailer_le hblock (Nat.le_of_eq htrailer)
  have hslice : ∀ first stop, stop ≤ 1 + block.length + trailer.length →
      (r.buffer.write 0 (kind.tag :: block ++ trailer)).slice first stop
        = ((kind.tag :: block ++ trailer).take stop).drop first := by
    intro first stop hstop
    exact Buffer.slice_write hfits (length_message kind block trailer ▸ hstop)
  have hhead : (kind.tag :: block ++ trailer).take (1 + block.length) = kind.tag :: block :=
    List.take_left' (Nat.add_comm block.length 1)
  have hwhole : (kind.tag :: block ++ trailer).take (1 + block.length + trailer.length)
      = kind.tag :: block ++ trailer :=
    List.take_of_length_le (Nat.le_of_eq (length_message kind block trailer))
  have hbehind : (kind.tag :: block ++ trailer).drop (1 + block.length) = trailer :=
    List.drop_left' (Nat.add_comm block.length 1)
  simp only [turn, inTrailer, held, currentKind, Option.getD_some]
  rw [hslice 1 _ (Nat.le_add_right _ _), hslice (1 + block.length) _ (Nat.le_refl _),
    hslice 0 _ (Nat.le_refl _), hhead, hwhole, hbehind]
  rfl

/-! ### Whole parts -/

/-- What happens when the current part is complete. -/
theorem advance_of_zero {r : Receiver} (h : r.remaining = 0) (s : σ) :
    advance ofStream handle r s =
      match r.turn d with
      | .onward r' => advance ofStream handle r' s
      | .complete received => r.deliver handle received s
      | .unknown tag => r.fail (ofStream (.unknownTag tag)) s := by
  rw [advance, if_pos h]
  cases r.turn d <;> rfl

/-- The bytes that complete the current part, whether there are any or none. -/
theorem andThen_advance_append {r : Receiver} {part : Bytes} (h : r.remaining = part.length)
    (rest : Bytes) (s : σ) :
    andThen (advance ofStream handle r s) (consume ofStream handle (part ++ rest))
      = andThen (advance ofStream handle (r.absorb part) s) (consume ofStream handle rest) := by
  by_cases hpart : part = []
  · -- the part is complete already, and the same pass goes on
    subst hpart
    have hnil : r.absorb [] = r := by simp [absorb]
    rw [hnil, List.nil_append]
  · have hpos : 0 < r.remaining := h ▸ List.length_pos_iff.2 hpart
    rw [advance_of_pos hpos, andThen_ok, consume_eq (by simp [hpart]), h, List.take_left,
      List.drop_left]

/-- After its tag, a message goes on with an empty block. -/
theorem consume_tag (kind : Kind) (rest : Bytes) (r : Receiver) (s : σ) :
    consume ofStream handle (kind.tag :: rest) r.restart s
      = andThen (advance ofStream handle (r.restart.inBlock d kind []) s)
          (consume ofStream handle rest) := by
  rw [consume_eq (List.cons_ne_nil _ _)]
  show andThen (advance ofStream handle (r.restart.absorb [kind.tag]) s)
    (consume ofStream handle rest) = _
  rw [advance_of_zero rfl, turn_tag]

/-- After its tag and its block, a message goes on with an empty trailer. -/
theorem consume_block {kind : Kind} {block : Bytes} (hblock : block.length = kind.blockLength d)
    (rest : Bytes) (r : Receiver) (s : σ) :
    consume ofStream handle (kind.tag :: block ++ rest) r.restart s
      = andThen (advance ofStream handle (r.restart.inTrailer d kind block []) s)
          (consume ofStream handle rest) := by
  rw [List.cons_append, consume_tag, andThen_advance_append hblock.symm,
    absorb_inBlock (by rw [List.nil_append]; exact Nat.le_of_eq hblock), List.nil_append]
  have hzero : (r.restart.inBlock d kind block).remaining = 0 :=
    Nat.sub_eq_zero_of_le (Nat.le_of_eq hblock.symm)
  rw [advance_of_zero hzero, turn_inBlock hblock]

/-! ### Segments and tails -/

/-- A byte that is no tag is a failure of its own. -/
theorem consume_stray {b : UInt8} (hb : 16 ≤ b.toNat) (rest : Bytes) (r : Receiver) (s : σ) :
    consume ofStream handle (b :: rest) r.restart s
      = andThen ((r.restart.absorb [b]).fail (ofStream (.unknownTag b)) s)
          (consume (d := d) ofStream handle rest) := by
  rw [consume_eq (List.cons_ne_nil _ _)]
  show andThen (advance ofStream handle (r.restart.absorb [b]) s) (consume ofStream handle rest) = _
  rw [advance_of_zero rfl, turn_stray r hb]

/-- A whole message is handed over once. -/
theorem consume_message {kind : Kind} {block trailer : Bytes}
    (hblock : block.length = kind.blockLength d)
    (htrailer : trailer.length = d.trailerLength kind block) (rest : Bytes) (r : Receiver) (s : σ) :
    consume ofStream handle (kind.tag :: block ++ trailer ++ rest) r.restart s
      = andThen ((r.restart.inTrailer d kind block trailer).deliver handle
            ⟨d.parse kind block trailer, (Segment.message kind block trailer).bytes⟩ s)
          (consume ofStream handle rest) := by
  rw [List.append_assoc, consume_block hblock, andThen_advance_append htrailer.symm,
    absorb_inTrailer hblock (by rw [List.nil_append]; exact Nat.le_of_eq htrailer), List.nil_append]
  have hzero : (r.restart.inTrailer d kind block trailer).remaining = 0 :=
    Nat.sub_eq_zero_of_le (Nat.le_of_eq htrailer.symm)
  rw [advance_of_zero hzero, turn_inTrailer hblock htrailer]

/-- A tag and less than a whole block are kept. -/
theorem consume_inBlock {kind : Kind} {taken : Bytes} (h : taken.length < kind.blockLength d)
    (r : Receiver) (s : σ) :
    consume ofStream handle (kind.tag :: taken) r.restart s
      = .ok () (r.restart.inBlock d kind taken, s) := by
  have hpos : 0 < (r.restart.inBlock d kind []).remaining := Nat.lt_of_le_of_lt (Nat.zero_le _) h
  rw [consume_tag, advance_of_pos hpos, andThen_ok, consume_of_lt h,
    absorb_inBlock (by rw [List.nil_append]; exact Nat.le_of_lt h), List.nil_append]

/-- A tag, a whole block and less than a whole trailer are kept. -/
theorem consume_inTrailer {kind : Kind} {block taken : Bytes}
    (hblock : block.length = kind.blockLength d) (h : taken.length < d.trailerLength kind block)
    (r : Receiver) (s : σ) :
    consume ofStream handle (kind.tag :: block ++ taken) r.restart s
      = .ok () (r.restart.inTrailer d kind block taken, s) := by
  have hpos : 0 < (r.restart.inTrailer d kind block []).remaining :=
    Nat.lt_of_le_of_lt (Nat.zero_le _) h
  rw [consume_block hblock, advance_of_pos hpos, andThen_ok, consume_of_lt h,
    absorb_inTrailer hblock (by rw [List.nil_append]; exact Nat.le_of_lt h), List.nil_append]

end Receiver
end PinBridge
