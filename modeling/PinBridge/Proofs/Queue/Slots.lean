/-
PinBridge/Proofs/Queue/Slots.lean

A ring of slots that bytes are kept in.

A ring has as many slots as it may hold bytes.  The byte at position `i` lies
`i` slots behind the first one, and behind the last slot comes slot 0 again.
Bytes are put in one by one, each into the slot behind the last byte.  They are
taken out without touching a slot: the first slot moves on, and goes back to
slot 0 when nothing is left.

So the order in the slots and the order of the content differ as soon as the
content wraps around.  What each operation does to the content is said by
`contents_extend` and `contents_pull`, and `head_eq_take` says how much of it
can be read in one piece.
-/
import Mathlib.Data.Nat.ModEq
import PinBridge.Queue

namespace PinBridge

/-- Bytes in a ring of slots. -/
structure SlotRing where
  slots : Bytes
  /-- The slot of the first byte. -/
  first : Nat
  /-- How many bytes there are. -/
  count : Nat
  deriving DecidableEq, Repr

namespace SlotRing

/-- A ring that holds nothing. -/
def empty (capacity : Nat) : SlotRing := ⟨List.replicate capacity 0, 0, 0⟩

def capacity (ring : SlotRing) : Nat := ring.slots.length

/-- How many bytes still fit. -/
def free (ring : SlotRing) : Nat := ring.capacity - ring.count

def isEmpty (ring : SlotRing) : Bool := ring.count == 0

/-- The slot at a distance from the first one, counted around the ring. -/
def slotAt (ring : SlotRing) (i : Nat) : Nat := (ring.first + i) % ring.capacity

/-- The byte at a position. -/
def byteAt (ring : SlotRing) (i : Nat) : UInt8 := Wire.byteAt ring.slots (ring.slotAt i)

/-- The bytes in the order in which they were put in. -/
def contents (ring : SlotRing) : Bytes := (List.range ring.count).map ring.byteAt

/-- The slots that can be read in one piece, up to the last byte or the last slot. -/
def head (ring : SlotRing) : Bytes := (ring.slots.drop ring.first).take ring.count

/-- Put a byte into the slot behind the last one. -/
def put (ring : SlotRing) (b : UInt8) : SlotRing :=
  { ring with slots := ring.slots.set (ring.slotAt ring.count) b, count := ring.count + 1 }

/-- Put bytes in, one after the other. -/
def extend (ring : SlotRing) (bs : Bytes) : SlotRing := bs.foldl put ring

/-- Put in a message, given in two parts, or nothing if it does not fit. -/
def pushParts (header trailer : Bytes) (ring : SlotRing) : Except QueueFull SlotRing :=
  if ring.free < header.length + trailer.length then
    .error ⟨header.length + trailer.length, ring.free⟩
  else .ok ((ring.extend header).extend trailer)

/-- How many bytes a `pull` of `n` takes out. -/
def pulled (n : Nat) (ring : SlotRing) : Nat := min n ring.count

/-- Take up to `n` bytes out. -/
def pull (n : Nat) (ring : SlotRing) : SlotRing :=
  { ring with
    first := if ring.pulled n = ring.count then 0 else ring.slotAt (ring.pulled n)
    count := ring.count - ring.pulled n }

/-- Take everything out. -/
def clear (ring : SlotRing) : SlotRing := { ring with first := 0, count := 0 }

/-- There are no more bytes than slots, and the first one has a slot if there are any. -/
structure Sound (ring : SlotRing) : Prop where
  count_le : ring.count ≤ ring.capacity
  first_lt : 0 < ring.capacity → ring.first < ring.capacity

variable {ring : SlotRing}

/-! ### What stays as it is -/

@[simp] theorem capacity_empty (capacity : Nat) : (empty capacity).capacity = capacity :=
  List.length_replicate

@[simp] theorem capacity_put (b : UInt8) : (ring.put b).capacity = ring.capacity :=
  List.length_set

@[simp] theorem capacity_extend (bs : Bytes) : (ring.extend bs).capacity = ring.capacity := by
  induction bs generalizing ring with
  | nil => rfl
  | cons b bs ih => exact ih.trans (capacity_put b)

@[simp] theorem first_extend (bs : Bytes) : (ring.extend bs).first = ring.first := by
  induction bs generalizing ring with
  | nil => rfl
  | cons b bs ih => exact ih

@[simp] theorem count_extend (bs : Bytes) : (ring.extend bs).count = ring.count + bs.length := by
  induction bs generalizing ring with
  | nil => rfl
  | cons b bs ih =>
    show ((ring.put b).extend bs).count = ring.count + (bs.length + 1)
    rw [ih]
    show ring.count + 1 + bs.length = ring.count + (bs.length + 1)
    omega

@[simp] theorem length_contents (ring : SlotRing) : ring.contents.length = ring.count := by
  rw [contents, List.length_map, List.length_range]

/-! ### Slots -/

/-- Bytes at different positions lie in different slots. -/
theorem slotAt_ne {i j : Nat} (hij : i < j) (hj : j < ring.capacity) :
    ring.slotAt i ≠ ring.slotAt j := by
  intro hsame
  have hmod : i ≡ j [MOD ring.capacity] := Nat.ModEq.add_left_cancel' ring.first hsame
  exact absurd (hmod.eq_of_lt_of_lt (hij.trans hj) hj) (Nat.ne_of_lt hij)

/-- Up to the last slot, positions are counted straight on. -/
theorem slotAt_of_lt {i : Nat} (h : ring.first + i < ring.capacity) :
    ring.slotAt i = ring.first + i := Nat.mod_eq_of_lt h

/-- A byte that is put in is the last one. -/
theorem byteAt_put_self (b : UInt8) (h : ring.count < ring.capacity) :
    (ring.put b).byteAt ring.count = b := by
  have hslot : ring.slotAt ring.count < ring.slots.length :=
    Nat.mod_lt _ (Nat.zero_lt_of_lt h)
  have hcount : (ring.put b).slotAt ring.count = ring.slotAt ring.count := by
    rw [slotAt, capacity_put]
    rfl
  rw [byteAt, hcount]
  show (ring.slots.set (ring.slotAt ring.count) b).getD (ring.slotAt ring.count) 0 = b
  rw [List.getD_eq_getElem?_getD, List.getElem?_set_self hslot, Option.getD_some]

/-- The bytes before it stay as they are. -/
theorem byteAt_put_of_lt (b : UInt8) (h : ring.count < ring.capacity) {i : Nat}
    (hi : i < ring.count) : (ring.put b).byteAt i = ring.byteAt i := by
  have hcount : (ring.put b).slotAt i = ring.slotAt i := by
    rw [slotAt, capacity_put]
    rfl
  rw [byteAt, hcount]
  show (ring.slots.set (ring.slotAt ring.count) b).getD (ring.slotAt i) 0
    = ring.slots.getD (ring.slotAt i) 0
  rw [List.getD_eq_getElem?_getD, List.getElem?_set_ne (slotAt_ne hi h).symm,
    ← List.getD_eq_getElem?_getD]

/-- When the first slot moves on, the positions are counted from there. -/
theorem byteAt_pull {n i : Nat} (h : ring.pulled n ≠ ring.count) :
    (ring.pull n).byteAt i = ring.byteAt (ring.pulled n + i) := by
  have hfirst : (ring.pull n).first = ring.slotAt (ring.pulled n) := if_neg h
  have hslot : (ring.pull n).slotAt i = ring.slotAt (ring.pulled n + i) := by
    show ((ring.pull n).first + i) % ring.capacity
      = (ring.first + (ring.pulled n + i)) % ring.capacity
    rw [hfirst, slotAt, Nat.mod_add_mod, Nat.add_assoc]
  rw [byteAt, byteAt, hslot]
  rfl

/-! ### What each operation does to the content -/

/-- A byte that is put in comes behind the others. -/
theorem contents_put (b : UInt8) (h : ring.count < ring.capacity) :
    (ring.put b).contents = ring.contents ++ [b] := by
  show (List.range (ring.count + 1)).map (ring.put b).byteAt = _
  rw [List.range_succ, List.map_append, List.map_singleton, byteAt_put_self b h]
  refine congrArg (· ++ [b]) (List.map_congr_left fun i hi => ?_)
  exact byteAt_put_of_lt b h (List.mem_range.1 hi)

/-- **Bytes that fit come behind the others**, wherever the content wraps around. -/
theorem contents_extend {bs : Bytes} (h : ring.count + bs.length ≤ ring.capacity) :
    (ring.extend bs).contents = ring.contents ++ bs := by
  induction bs generalizing ring with
  | nil => exact (List.append_nil _).symm
  | cons b bs ih =>
    rw [List.length_cons] at h
    have hrest : (ring.put b).count + bs.length ≤ (ring.put b).capacity := by
      rw [capacity_put]
      show ring.count + 1 + bs.length ≤ ring.capacity
      omega
    show ((ring.put b).extend bs).contents = ring.contents ++ (b :: bs)
    rw [ih hrest, contents_put b (by omega), List.append_assoc, List.singleton_append]

/-- **Bytes are taken out at the front.** -/
theorem contents_pull (n : Nat) : (ring.pull n).contents = ring.contents.drop n := by
  by_cases hall : ring.pulled n = ring.count
  · -- nothing is left
    have hn : ring.count ≤ n := by
      rw [pulled] at hall
      omega
    have hcount : (ring.pull n).count = 0 := by
      show ring.count - ring.pulled n = 0
      omega
    rw [List.drop_of_length_le (by rwa [length_contents]), contents, hcount]
    rfl
  · have hn : ring.pulled n = n := by
      rw [pulled] at hall ⊢
      omega
    apply List.ext_getElem
    · rw [List.length_drop, length_contents, length_contents]
      show ring.count - ring.pulled n = ring.count - n
      rw [hn]
    · intro i hi hdrop
      rw [List.getElem_drop]
      simp only [contents, List.getElem_map, List.getElem_range]
      rw [byteAt_pull hall, hn]

/-- **What can be read in one piece is the front of the content**, up to the last slot. -/
theorem head_eq_take (h : ring.Sound) :
    ring.head = ring.contents.take (ring.capacity - ring.first) := by
  have hcount := h.count_le
  apply List.ext_getElem
  · rw [head, List.length_take, List.length_drop, List.length_take, length_contents]
    exact Nat.min_comm _ _
  · intro i hi htake
    rw [List.length_take] at htake
    have hslot : ring.first + i < ring.slots.length := by
      show ring.first + i < ring.capacity
      omega
    rw [List.getElem_take]
    simp only [head, contents, List.getElem_take, List.getElem_drop, List.getElem_map,
      List.getElem_range]
    rw [byteAt, slotAt_of_lt hslot, Wire.byteAt, List.getD_eq_getElem?_getD,
      List.getElem?_eq_getElem hslot, Option.getD_some]

/-! ### Soundness -/

theorem sound_empty (capacity : Nat) : (empty capacity).Sound := ⟨Nat.zero_le _, id⟩

theorem Sound.extend (h : ring.Sound) {bs : Bytes}
    (hfits : ring.count + bs.length ≤ ring.capacity) : (ring.extend bs).Sound := by
  refine ⟨?_, ?_⟩
  · rw [count_extend, capacity_extend]
    exact hfits
  · rw [first_extend, capacity_extend]
    exact h.first_lt

theorem Sound.pull (h : ring.Sound) (n : Nat) : (ring.pull n).Sound := by
  refine ⟨Nat.le_trans (Nat.sub_le _ _) h.count_le, fun hpos => ?_⟩
  show (if ring.pulled n = ring.count then 0 else ring.slotAt (ring.pulled n)) < ring.capacity
  split
  · exact hpos
  · exact Nat.mod_lt _ hpos

theorem sound_clear (ring : SlotRing) : ring.clear.Sound := ⟨Nat.zero_le _, id⟩

end SlotRing
end PinBridge
