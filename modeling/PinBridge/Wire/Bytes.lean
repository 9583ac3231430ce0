/-
PinBridge/Wire/Bytes.lean

Bytes, how a run of them is cut into chunks, and the two ways numbers are laid
out in them.

Multi-byte numbers go out least significant byte first: `littleEndian` writes
one by recursion on its width, `ofLittleEndian` reads one back.  Small fields
share a byte: `bits` cuts `width` bits out of a byte from position `low` up,
`place` puts them there, and bits that do not fit the width are dropped.
Both work on the numbers that the bytes stand for, so that their laws are
facts about quotients and remainders.  Powers are written `Nat.pow`, which is
the same function whatever is imported.
-/
namespace PinBridge

/-- A run of bytes, first byte first. -/
abbrev Bytes := List UInt8

namespace Wire

/-! ### Chunks -/

/-- Pieces of `size` bytes, for at most so many steps. -/
def chunkSteps : (steps size : Nat) → Bytes → List Bytes
  | 0, _, _ => []
  | steps + 1, size, bs =>
    if bs.isEmpty then [] else bs.take size :: chunkSteps steps size (bs.drop size)

/-- Pieces of `size` bytes, the last one as long as the rest; no piece is empty. -/
def chunksOf (size : Nat) (bs : Bytes) : List Bytes := chunkSteps bs.length size bs

theorem flatten_chunkSteps {steps size : Nat} (hsize : 0 < size) (bs : Bytes)
    (hsteps : bs.length ≤ steps) : (chunkSteps steps size bs).flatten = bs := by
  induction steps generalizing bs with
  | zero =>
    cases bs with
    | nil => rfl
    | cons b bs => simp at hsteps
  | succ steps ih =>
    unfold chunkSteps
    cases bs with
    | nil => rfl
    | cons b bs =>
      have h : ((b :: bs).drop size).length ≤ steps := by
        rw [List.length_drop]
        omega
      simp [ih _ h]

/-- Nothing is lost by cutting. -/
theorem flatten_chunksOf {size : Nat} (hsize : 0 < size) (bs : Bytes) :
    (chunksOf size bs).flatten = bs :=
  flatten_chunkSteps hsize bs (Nat.le_refl _)

/-! ### Little-endian numbers -/

/-- The `width` low bytes of `n`, least significant first. -/
def littleEndian : (width : Nat) → (n : Nat) → Bytes
  | 0, _ => []
  | width + 1, n => UInt8.ofNat (n % 256) :: littleEndian width (n / 256)

/-- The number whose bytes, least significant first, are given. -/
def ofLittleEndian : Bytes → Nat
  | [] => 0
  | b :: bs => b.toNat + 256 * ofLittleEndian bs

@[simp] theorem length_littleEndian (width n : Nat) : (littleEndian width n).length = width := by
  induction width generalizing n with
  | zero => rfl
  | succ width ih => simp [littleEndian, ih]

/-- Reading back keeps the part of the number that fits the width. -/
@[simp] theorem ofLittleEndian_littleEndian (width n : Nat) :
    ofLittleEndian (littleEndian width n) = n % Nat.pow 256 width := by
  induction width generalizing n with
  | zero => simp [littleEndian, ofLittleEndian, Nat.mod_one]
  | succ width ih =>
    have hb : (UInt8.ofNat (n % 256)).toNat = n % 256 := by simp
    rw [littleEndian, ofLittleEndian, ih, hb, ← Nat.mod_mul, Nat.mul_comm]
    rfl

/-! ### Fields within a byte -/

/-- The byte at position `i`; a byte that is not there reads as zero. -/
def byteAt (bs : Bytes) (i : Nat) : UInt8 := bs.getD i 0

/-- The two-byte number that starts at position `i`. -/
def word16At (bs : Bytes) (i : Nat) : UInt16 := .ofNat (ofLittleEndian ((bs.drop i).take 2))

/-- The four-byte number that starts at position `i`. -/
def word32At (bs : Bytes) (i : Nat) : UInt32 := .ofNat (ofLittleEndian ((bs.drop i).take 4))

/-- The eight-byte number that starts at position `i`. -/
def word64At (bs : Bytes) (i : Nat) : UInt64 := .ofNat (ofLittleEndian ((bs.drop i).take 8))

/-- The `width` bits of `b` from position `low` up. -/
def bits (b : UInt8) (low width : Nat) : UInt8 :=
  .ofNat (b.toNat / Nat.pow 2 low % Nat.pow 2 width)

/-- Whether bit `i` of `b` is set. -/
def bit (b : UInt8) (i : Nat) : Bool := b.toNat / Nat.pow 2 i % 2 == 1

/-- The low `width` bits of `v`, moved up to position `low`. -/
def place (v : UInt8) (low width : Nat) : UInt8 :=
  .ofNat (v.toNat % Nat.pow 2 width * Nat.pow 2 low)

/-- Bit `i`, set or clear. -/
def placeBit (v : Bool) (i : Nat) : UInt8 := if v then .ofNat (Nat.pow 2 i) else 0

end Wire
end PinBridge
