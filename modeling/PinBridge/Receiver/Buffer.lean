/-
PinBridge/Receiver/Buffer.lean

The room that a message is received into.

A buffer has as many cells as the longest message has bytes, whatever is
written.  A message grows in it from cell 0 up; the cells behind it keep what
earlier messages left there.

Main statements: `write_write`, two writes side by side are one, and
`slice_write`, what has been written is read back.
-/
import PinBridge.Wire.Kind

namespace PinBridge

/-- As many cells as the longest message has bytes. -/
@[ext] structure Buffer where
  cells : Bytes
  length_cells : cells.length = Wire.longestMessage
  deriving DecidableEq, Repr

namespace Buffer

/-- A buffer that nothing has been written to. -/
def zeros : Buffer := ⟨List.replicate Wire.longestMessage 0, List.length_replicate⟩

/-- The cell at position `i`. -/
def cellAt (buffer : Buffer) (i : Nat) : UInt8 := Wire.byteAt buffer.cells i

/-- The cells from position `start` up to, not including, position `stop`. -/
def slice (buffer : Buffer) (start stop : Nat) : Bytes := (buffer.cells.take stop).drop start

/-- Write bytes from position `start` on.  Bytes that do not fit are not written, none of them. -/
def write (buffer : Buffer) (start : Nat) (bs : Bytes) : Buffer :=
  if h : start + bs.length ≤ Wire.longestMessage then
    { cells := buffer.cells.take start ++ bs ++ buffer.cells.drop (start + bs.length)
      length_cells := by
        have := buffer.length_cells
        simp only [List.length_append, List.length_take, List.length_drop]
        omega }
  else buffer

variable {buffer : Buffer} {start : Nat} {bs : Bytes}

/-- The cells after a write that fits. -/
theorem cells_write (h : start + bs.length ≤ Wire.longestMessage) :
    (buffer.write start bs).cells
      = buffer.cells.take start ++ bs ++ buffer.cells.drop (start + bs.length) := by
  simp [write, h]

@[simp] theorem write_nil : buffer.write start [] = buffer := by
  unfold write
  split
  · cases buffer
    simp
  · rfl

/-- Where the cells behind a write begin. -/
theorem length_take_append (h : start + bs.length ≤ Wire.longestMessage) :
    (buffer.cells.take start ++ bs).length = start + bs.length := by
  have hcells := buffer.length_cells
  rw [List.length_append, List.length_take]
  omega

/-- The cells up to the end of a write: those before it, and what was written. -/
theorem take_cells_write (h : start + bs.length ≤ Wire.longestMessage) :
    (buffer.write start bs).cells.take (start + bs.length) = buffer.cells.take start ++ bs := by
  rw [cells_write h]
  exact List.take_left' (length_take_append h)

/-- A write leaves the cells before it as they were. -/
theorem take_cells_write_of_le {stop : Nat} (hstop : stop ≤ start) :
    (buffer.write start bs).cells.take stop = buffer.cells.take stop := by
  unfold write
  split
  · have hlen : stop ≤ (buffer.cells.take start).length := by
      have := buffer.length_cells
      rw [List.length_take]
      omega
    simp only [List.append_assoc]
    rw [List.take_append_of_le_length hlen, List.take_take, Nat.min_eq_left hstop]
  · rfl

theorem cellAt_write_of_lt {i : Nat} (hi : i < start) :
    (buffer.write start bs).cellAt i = buffer.cellAt i := by
  have hcell : ∀ cells : Bytes, Wire.byteAt cells i = Wire.byteAt (cells.take (i + 1)) i := by
    intro cells
    simp [Wire.byteAt, List.getD_eq_getElem?_getD, List.getElem?_take_of_lt (Nat.lt_succ_self i)]
  rw [cellAt, cellAt, hcell, take_cells_write_of_le hi, ← hcell]

/-- A write leaves the slices before it as they were. -/
theorem slice_write_of_le {first stop : Nat} (hstop : stop ≤ start) :
    (buffer.write start bs).slice first stop = buffer.slice first stop := by
  rw [slice, take_cells_write_of_le hstop, slice]

/-- A write leaves the cells behind it as they were. -/
theorem drop_cells_write (h : start + bs.length ≤ Wire.longestMessage) :
    (buffer.write start bs).cells.drop (start + bs.length)
      = buffer.cells.drop (start + bs.length) := by
  rw [cells_write h]
  exact List.drop_left' (length_take_append h)

/-- **Two writes side by side are one.** -/
theorem write_write (buffer : Buffer) {a b : Bytes}
    (h : start + (a ++ b).length ≤ Wire.longestMessage) :
    (buffer.write start a).write (start + a.length) b = buffer.write start (a ++ b) := by
  rw [List.length_append] at h
  have ha : start + a.length ≤ Wire.longestMessage := by omega
  have hb : start + a.length + b.length ≤ Wire.longestMessage := by omega
  have hab : start + (a ++ b).length ≤ Wire.longestMessage := by
    rw [List.length_append]
    omega
  ext1
  rw [cells_write hb, cells_write hab, take_cells_write ha, ← List.drop_drop, drop_cells_write ha,
    List.drop_drop, List.length_append]
  simp only [List.append_assoc, Nat.add_assoc]

/-- **What has been written from cell 0 on is read back.** -/
theorem slice_write {first stop : Nat} (hbs : bs.length ≤ Wire.longestMessage)
    (hstop : stop ≤ bs.length) :
    (buffer.write 0 bs).slice first stop = (bs.take stop).drop first := by
  have h : 0 + bs.length ≤ Wire.longestMessage := by omega
  rw [slice, cells_write h, List.take_zero, List.nil_append, List.take_append_of_le_length hstop]

/-- The first cell holds the first byte that was written from there on. -/
theorem cellAt_write {b : UInt8} (h : (b :: bs).length ≤ Wire.longestMessage) :
    (buffer.write 0 (b :: bs)).cellAt 0 = b := by
  have hfits : 0 + (b :: bs).length ≤ Wire.longestMessage := by omega
  rw [cellAt, cells_write hfits]
  rfl

end Buffer
end PinBridge
