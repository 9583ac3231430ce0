/-
PinBridge/Proofs/Wire/Canonical.lean

What is left of an image that is read and written back.

Not every bit of a fixed block has a name (`Direction.named`).  The bits that
have none are ignored when a block is read and are zero when it is written, so
that reading and writing clears them, and nothing else: `layout_parse`.  With it
an image that is read and written back is canonical, that is, two images of one
kind hold the same message exactly if they are written back as the same bytes.

The bytes that announce the length of a trailer are named, although no field is
read from them: the trailer is as long as they say.

Main statement: `encode_parse`.
-/
import Mathlib.Data.List.Basic
import PinBridge.Proofs.Wire.Image
import PinBridge.Proofs.Wire.Widths

namespace PinBridge

/-! ### Masks -/

namespace Wire

/-- The bytes with every bit cleared that the masks do not have. -/
def masked (masks bs : Bytes) : Bytes := List.zipWith (fun mask b => b &&& mask) masks bs

/-- Every bit that the masks have is the same in both. -/
def AgreeOn (masks a b : Bytes) : Prop :=
  ∀ i j, bit (byteAt masks i) j = true → bit (byteAt a i) j = bit (byteAt b i) j

variable {masks a b : Bytes}

theorem bit_eq_testBit (b : UInt8) (j : Nat) : bit b j = b.toNat.testBit j := by
  rw [Nat.testBit_eq_decide_div_mod_eq]
  rfl

theorem bit_and (x mask : UInt8) (j : Nat) : bit (x &&& mask) j = (bit x j && bit mask j) := by
  rw [bit_eq_testBit, bit_eq_testBit, bit_eq_testBit, UInt8.toNat_and, Nat.testBit_and]

theorem length_masked (h : masks.length = a.length) : (masked masks a).length = a.length := by
  rw [masked, List.length_zipWith, h, Nat.min_self]

/-- What is left are the bits that the masks have. -/
theorem bit_masked (h : masks.length = a.length) (i j : Nat) :
    bit (byteAt (masked masks a) i) j = (bit (byteAt a i) j && bit (byteAt masks i) j) := by
  induction masks generalizing a i with
  | nil =>
    cases List.length_eq_zero_iff.1 h.symm
    exact (Bool.and_self _).symm
  | cons mask masks ih =>
    cases a with
    | nil => cases h
    | cons x a =>
      cases i with
      | zero => exact bit_and x mask j
      | succ i => exact ih (Nat.succ.inj h) i

theorem and_full (b : UInt8) : b &&& 0xFF = b := by
  apply UInt8.toBitVec_inj.1
  rw [UInt8.toBitVec_and]
  exact BitVec.and_allOnes

/-- Full masks clear nothing. -/
theorem masked_full {n : Nat} (h : a.length = n) : masked (List.replicate n 0xFF) a = a := by
  subst h
  induction a with
  | nil => rfl
  | cons b bs ih =>
    show (b &&& 0xFF) :: masked (List.replicate bs.length 0xFF) bs = _
    rw [and_full, ih]

/-- A byte under a mask tells the bits that the mask has, and no others. -/
theorem and_eq_and_iff {x y mask : UInt8} :
    x &&& mask = y &&& mask ↔ ∀ j, bit mask j = true → bit x j = bit y j := by
  simp only [bit_eq_testBit]
  rw [← UInt8.toNat_inj, UInt8.toNat_and, UInt8.toNat_and]
  constructor
  · intro h j hmask
    have hbit := congrArg (Nat.testBit · j) h
    simpa only [Nat.testBit_and, hmask, Bool.and_true] using hbit
  · intro h
    refine Nat.eq_of_testBit_eq fun j => ?_
    rw [Nat.testBit_and, Nat.testBit_and]
    cases hmask : mask.toNat.testBit j with
    | false => rw [Bool.and_false, Bool.and_false]
    | true => rw [h j hmask]

theorem agreeOn_cons {mask x y : UInt8} :
    AgreeOn (mask :: masks) (x :: a) (y :: b) ↔ x &&& mask = y &&& mask ∧ AgreeOn masks a b := by
  rw [and_eq_and_iff]
  constructor
  · intro h
    exact ⟨h 0, fun i => h (i + 1)⟩
  · rintro ⟨hfirst, hrest⟩ i
    cases i with
    | zero => exact hfirst
    | succ i => exact hrest i

/-- **Bytes are the same under masks exactly if they agree on them.** -/
theorem masked_eq_iff (ha : masks.length = a.length) (hb : masks.length = b.length) :
    masked masks a = masked masks b ↔ AgreeOn masks a b := by
  induction masks generalizing a b with
  | nil =>
    refine iff_of_true rfl fun i j hbit => ?_
    have hzero : bit (byteAt [] i) j = false := by
      show (0 / Nat.pow 2 j % 2 == 1) = false
      rw [Nat.zero_div]
      rfl
    rw [hzero] at hbit
    cases hbit
  | cons mask masks ih =>
    cases a with
    | nil => cases ha
    | cons x a =>
      cases b with
      | nil => cases hb
      | cons y b =>
        rw [agreeOn_cons, ← ih (Nat.succ.inj ha) (Nat.succ.inj hb)]
        exact List.cons_eq_cons

end Wire

open Wire

/-! ### Named bits -/

/-- The bits of the fixed block that have a name. -/
def TwoWayKind.named : TwoWayKind → Bytes
  | .softReset | .periodicSampling | .reserved => []
  | .pinDigitalOut | .pinDigitalIn => [0b11111111]
  | .changeNotify => [0b11111101]
  | .pinAnalogIn => [0b00111111]
  | .uartData => [0b00000011, 0b11111111]
  | .uartConfig => [0b11001111, 0b11111111, 0b11111111]
  | .pinUartRx | .pinUartTx => [0b00111111, 0b10000011]

/-- The bits of the fixed block that have a name. -/
def OneWayKind.named : Direction → OneWayKind → Bytes
  | .incoming, .session => List.replicate 4 0b11111111
  | .incoming, .level => [0b11111101]
  | .incoming, .binding => [0b00111111, 0b00001111]
  | .incoming, .sample => [0b00111111, 0b11111111, 0b11111111]
  | .incoming, .timing => [0b00011111, 0b11111111, 0b11111111]
  | .outgoing, .session => List.replicate 16 0b11111111
  | .outgoing, .level => [0b11111101]
  | .outgoing, .binding => [0b11111111]
  | .outgoing, .sample => [0b11111111]
  | .outgoing, .timing => [0b11111111, 0b11111111]

/-- The bits of the fixed block that have a name. -/
def Direction.named (d : Direction) : Kind → Bytes
  | .twoWay k => k.named
  | .oneWay k => k.named d

theorem Direction.length_named (d : Direction) (kind : Kind) :
    (d.named kind).length = kind.blockLength d := by
  rcases kind with kind | kind
  · cases kind <;> rfl
  · cases d <;> cases kind <;> rfl

/-! ### Fields put back -/

namespace Wire

/-- A pin in the low bits of its byte. -/
theorem place_pin (b : UInt8) : place (bits b 0 6) 0 6 = b &&& 0b00111111 :=
  place_bits b (by decide)

/-- A pin above a flag, with a bit between them that has no name. -/
theorem place_level (b : UInt8) :
    placeBit (bit b 0) 0 + place (bits b 2 6) 2 6 = b &&& 0b11111101 := by
  rw [placeBit_bit b (by decide), place_bits b (by decide), and_add_and b (by decide)]
  rfl

/-- The number that starts behind the first byte. -/
theorem word16_behind (x y z : UInt8) : littleEndian 2 (word16At [x, y, z] 1).toNat = [y, z] :=
  littleEndian_word16At (Nat.le_refl 3)

end Wire

namespace TwoWay

variable {kind : TwoWayKind} {block trailer : Bytes}

/-- What is read is written back where it was, and bits without a name are cleared. -/
theorem block_parse (hblock : block.length = kind.blockLength)
    (htrailer : trailer.length = trailerLength kind block) :
    (parse kind block trailer).block = masked kind.named block := by
  cases kind with
  | softReset | periodicSampling | reserved => rfl
  | pinDigitalOut =>
    obtain ⟨b, rfl⟩ := List.length_eq_one_iff.1 hblock
    show [placeBit (bit b 0) 0 + placeBit (bit b 1) 1 + place (bits b 2 6) 2 6] = [b &&& 0xFF]
    rw [placeBit_bit b (by decide), placeBit_bit b (by decide), place_bits b (by decide),
      and_add_and b (by decide), and_add_and b (by decide)]
    rfl
  | pinDigitalIn =>
    obtain ⟨b, rfl⟩ := List.length_eq_one_iff.1 hblock
    show [place (bits b 0 2) 0 2 + place (bits b 2 6) 2 6] = [b &&& 0xFF]
    rw [place_bits b (by decide), place_bits b (by decide), and_add_and b (by decide)]
    rfl
  | changeNotify =>
    obtain ⟨b, rfl⟩ := List.length_eq_one_iff.1 hblock
    exact congrArg (fun byte => [byte]) (place_level b)
  | pinAnalogIn =>
    obtain ⟨b, rfl⟩ := List.length_eq_one_iff.1 hblock
    exact congrArg (fun byte => [byte]) (place_pin b)
  | uartData =>
    obtain ⟨b, size, rfl⟩ := List.length_eq_two.1 hblock
    have hsize : trailer.length - 1 = size.toNat := by
      rw [htrailer]
      rfl
    show [place (bits b 0 2) 0 2, .ofNat (trailer.length - 1)] = [b &&& 0b00000011, size &&& 0xFF]
    rw [place_bits b (by decide), hsize, UInt8.ofNat_toNat, and_full]
    rfl
  | uartConfig =>
    obtain ⟨b, low, high, rfl⟩ := List.length_eq_three.1 hblock
    show (place (bits b 0 2) 0 2 + placeBit (bit b 2) 2 + placeBit (bit b 3) 3
        + place (bits b 6 2) 6 2) :: littleEndian 2 (word16At [b, low, high] 1).toNat
      = [b &&& 0b11001111, low &&& 0xFF, high &&& 0xFF]
    rw [word16_behind, placeBit_bit b (by decide), placeBit_bit b (by decide),
      place_bits b (by decide), place_bits b (by decide), and_add_and b (by decide),
      and_add_and b (by decide), and_add_and b (by decide), and_full, and_full]
    rfl
  | pinUartRx | pinUartTx =>
    obtain ⟨b, c, rfl⟩ := List.length_eq_two.1 hblock
    show [place (bits b 0 6) 0 6, place (bits c 0 2) 0 2 + placeBit (bit c 7) 7]
      = [b &&& 0b00111111, c &&& 0b10000011]
    rw [place_pin, place_bits c (by decide), placeBit_bit c (by decide),
      and_add_and c (by decide)]
    rfl

/-- A trailer is written back as it was read, and one that is announced can be announced. -/
theorem trailer_parse (htrailer : trailer.length = trailerLength kind block) :
    (parse kind block trailer).layout.trailer = trailer ∧
      (parse kind block trailer).Announceable := by
  cases kind with
  | uartData =>
    have hsize : (byteAt block 1).toNat < 256 := UInt8.toNat_lt _
    have hlength : trailer.length = (byteAt block 1).toNat + 1 := htrailer
    refine ⟨rfl, ?_, ?_⟩
    · omega
    · omega
  | _ => exact ⟨(List.length_eq_zero_iff.1 htrailer).symm, trivial⟩

end TwoWay

namespace Command

variable {kind : Kind} {block trailer : Bytes}

/-- What is read is written back where it was, and bits without a name are cleared. -/
theorem block_parse (hblock : block.length = kind.blockLength .incoming)
    (htrailer : trailer.length = trailerLength kind block) :
    (parse kind block trailer).layout.block = masked (Direction.named .incoming kind) block := by
  rcases kind with kind | kind
  · exact TwoWay.block_parse hblock htrailer
  · cases kind with
    | session =>
      have hfour : block.length = 4 := hblock
      show littleEndian 4 (word32At block 0).toNat = masked (List.replicate 4 0xFF) block
      rw [masked_full hfour, littleEndian_word32At (Nat.le_of_eq hfour.symm), window_whole hfour]
    | level =>
      obtain ⟨b, rfl⟩ := List.length_eq_one_iff.1 hblock
      exact congrArg (fun byte => [byte]) (place_level b)
    | binding =>
      obtain ⟨b, c, rfl⟩ := List.length_eq_two.1 hblock
      show [place (bits b 0 6) 0 6, place (bits c 0 4) 0 4] = [b &&& 0b00111111, c &&& 0b00001111]
      rw [place_pin, place_bits c (by decide)]
      rfl
    | sample =>
      obtain ⟨b, low, high, rfl⟩ := List.length_eq_three.1 hblock
      show (place (bits b 0 2) 0 2 + place (bits b 2 4) 2 4)
          :: littleEndian 2 (word16At [b, low, high] 1).toNat
        = [b &&& 0b00111111, low &&& 0xFF, high &&& 0xFF]
      rw [word16_behind, place_bits b (by decide), place_bits b (by decide),
        and_add_and b (by decide), and_full, and_full]
      rfl
    | timing =>
      obtain ⟨b, low, high, rfl⟩ := List.length_eq_three.1 hblock
      show (placeBit (bit b 0) 0 + place (bits b 1 4) 1 4)
          :: littleEndian 2 (word16At [b, low, high] 1).toNat
        = [b &&& 0b00011111, low &&& 0xFF, high &&& 0xFF]
      rw [word16_behind, placeBit_bit b (by decide), place_bits b (by decide),
        and_add_and b (by decide), and_full, and_full]
      rfl

/-- A trailer is written back as it was read, and one that is announced can be announced. -/
theorem trailer_parse (htrailer : trailer.length = trailerLength kind block) :
    (parse kind block trailer).layout.trailer = trailer ∧
      (parse kind block trailer).Announceable := by
  rcases kind with kind | kind
  · exact TwoWay.trailer_parse htrailer
  · cases List.length_eq_zero_iff.1 htrailer
    cases kind <;> exact ⟨rfl, trivial⟩

end Command

namespace Report

variable {kind : Kind} {block trailer : Bytes}

/-- Samples are written back as they were read, if no byte is left over. -/
theorem flatMap_samplesOf {n : Nat} (h : trailer.length = n * 2) :
    ((samplesOf trailer).flatMap fun s => littleEndian 2 s.toNat) = trailer ∧
      (samplesOf trailer).length = n := by
  induction n generalizing trailer with
  | zero =>
    cases List.length_eq_zero_iff.1 h
    exact ⟨rfl, rfl⟩
  | succ n ih =>
    rcases trailer with _ | ⟨low, _ | ⟨high, rest⟩⟩
    · rw [List.length_nil] at h
      omega
    · rw [List.length_singleton] at h
      omega
    · have hrest : rest.length = n * 2 := by
        rw [List.length_cons, List.length_cons] at h
        omega
      have hsample : littleEndian 2 (word16At [low, high] 0).toNat = [low, high] :=
        littleEndian_word16At (Nat.le_refl 2)
      have hcons : samplesOf (low :: high :: rest) = word16At [low, high] 0 :: samplesOf rest := rfl
      obtain ⟨hbytes, hlength⟩ := ih hrest
      constructor
      · rw [hcons, List.flatMap_cons, hsample, hbytes]
        rfl
      · rw [hcons, List.length_cons, hlength]

/-- The four numbers of a connection are written back where they were read. -/
theorem block_connection (h : block.length = 16) :
    (parse (.oneWay .session) block trailer).layout.block = block := by
  have hmagic : littleEndian 4 (word32At block 0).toNat = block.take 4 :=
    littleEndian_word32At (by omega)
  have hhardware : littleEndian 2 (word16At block 4).toNat = (block.drop 4).take 2 :=
    littleEndian_word16At (by omega)
  have hbootloader : littleEndian 2 (word16At block 6).toNat = (block.drop 6).take 2 :=
    littleEndian_word16At (by omega)
  have hfirmware : littleEndian 8 (word64At block 8).toNat = (block.drop 8).take 8 :=
    littleEndian_word64At (by omega)
  calc (parse (.oneWay .session) block trailer).layout.block
      = littleEndian 4 (word32At block 0).toNat ++ littleEndian 2 (word16At block 4).toNat
          ++ littleEndian 2 (word16At block 6).toNat ++ littleEndian 8 (word64At block 8).toNat :=
        rfl
    _ = block.take 4 ++ (block.drop 4).take 2 ++ (block.drop 6).take 2
          ++ (block.drop 8).take 8 := by
        rw [hmagic, hhardware, hbootloader, hfirmware]
    _ = block.take (4 + 2 + 2 + 8) := by
        rw [List.take_add, List.take_add, List.take_add]
    _ = block := List.take_of_length_le (Nat.le_of_eq h)

/-- A backlog shares its word with a UART. -/
theorem block_backlog (h : block.length = 2) :
    (parse (.oneWay .timing) block trailer).layout.block = block := by
  have hword : (word16At block 0).toNat < 65536 := UInt16.toNat_lt _
  have huart : (UInt8.ofNat ((word16At block 0).toNat % 4)).toNat
      = (word16At block 0).toNat % 4 := by
    refine UInt8.toNat_ofNat_of_lt' ?_
    exact Nat.lt_trans (Nat.mod_lt _ (by decide : 0 < 4)) (by decide)
  have hbacklog : (UInt16.ofNat ((word16At block 0).toNat / 4)).toNat
      = (word16At block 0).toNat / 4 :=
    UInt16.toNat_ofNat_of_lt' (Nat.lt_of_le_of_lt (Nat.div_le_self _ _) hword)
  have hshared : (word16At block 0).toNat % 4 % 4
      + min ((word16At block 0).toNat / 4) uartRemainingMax * 4 = (word16At block 0).toNat := by
    rw [uartRemainingMax]
    omega
  show littleEndian 2 ((UInt8.ofNat ((word16At block 0).toNat % 4)).toNat % 4
    + min (UInt16.ofNat ((word16At block 0).toNat / 4)).toNat uartRemainingMax * 4) = block
  rw [huart, hbacklog, hshared, littleEndian_word16At (Nat.le_of_eq h.symm), window_whole h]

/-- What is read is written back where it was, and bits without a name are cleared. -/
theorem block_parse (hblock : block.length = kind.blockLength .outgoing)
    (htrailer : trailer.length = trailerLength kind block) :
    (parse kind block trailer).layout.block = masked (Direction.named .outgoing kind) block := by
  rcases kind with kind | kind
  · exact TwoWay.block_parse hblock htrailer
  · have hfull := masked_full hblock
    cases kind with
    | session => exact (block_connection hblock).trans hfull.symm
    | level =>
      obtain ⟨b, rfl⟩ := List.length_eq_one_iff.1 hblock
      exact congrArg (fun byte => [byte]) (place_level b)
    | binding =>
      obtain ⟨b, rfl⟩ := List.length_eq_one_iff.1 hblock
      have hlength : trailer.length = b.toNat := htrailer
      refine Eq.trans ?_ hfull.symm
      show [UInt8.ofNat trailer.length] = [b]
      rw [hlength, UInt8.ofNat_toNat]
    | sample =>
      obtain ⟨b, rfl⟩ := List.length_eq_one_iff.1 hblock
      have hlength : trailer.length = b.toNat * 2 := htrailer
      refine Eq.trans ?_ hfull.symm
      show [UInt8.ofNat (samplesOf trailer).length] = [b]
      rw [(flatMap_samplesOf hlength).2, UInt8.ofNat_toNat]
    | timing => exact (block_backlog hblock).trans hfull.symm

/-- A trailer is written back as it was read, and one that is announced can be announced. -/
theorem trailer_parse (htrailer : trailer.length = trailerLength kind block) :
    (parse kind block trailer).layout.trailer = trailer ∧
      (parse kind block trailer).Announceable := by
  have hcount : (byteAt block 0).toNat < 256 := UInt8.toNat_lt _
  rcases kind with kind | kind
  · exact TwoWay.trailer_parse htrailer
  · cases kind with
    | binding =>
      have hlength : trailer.length = (byteAt block 0).toNat := htrailer
      refine ⟨rfl, ?_⟩
      show trailer.length ≤ 255
      omega
    | sample =>
      obtain ⟨hbytes, hlength⟩ := flatMap_samplesOf htrailer
      refine ⟨hbytes, ?_⟩
      show (samplesOf trailer).length ≤ 255
      omega
    | _ => exact ⟨(List.length_eq_zero_iff.1 htrailer).symm, trivial⟩

end Report

/-! ### Images that are read and written back -/

namespace Direction

variable {d : Direction} {kind : Kind} {block trailer : Bytes}

/-- **What is read is written back where it was**, and bits without a name are cleared. -/
theorem layout_parse (hblock : block.length = kind.blockLength d)
    (htrailer : trailer.length = d.trailerLength kind block) :
    (d.layout (d.parse kind block trailer)).block = masked (d.named kind) block ∧
      (d.layout (d.parse kind block trailer)).trailer = trailer ∧
      d.Announceable (d.parse kind block trailer) := by
  cases d
  · exact ⟨Command.block_parse hblock htrailer, Command.trailer_parse htrailer⟩
  · exact ⟨Report.block_parse hblock htrailer, Report.trailer_parse htrailer⟩

/-- Bits without a name are ignored. -/
theorem parse_masked (hblock : block.length = kind.blockLength d)
    (htrailer : trailer.length = d.trailerLength kind block) :
    d.parse kind (masked (d.named kind) block) trailer = d.parse kind block trailer := by
  obtain ⟨hcleared, hsame, -⟩ := layout_parse hblock htrailer
  have hback := parse_layout (d.parse kind block trailer)
  rwa [kindOf_parse, hcleared, hsame, narrow_parse] at hback

/-- Two images of one kind hold the same message exactly if they agree on all named bits. -/
theorem parse_eq_iff {block' trailer' : Bytes} (hblock : block.length = kind.blockLength d)
    (htrailer : trailer.length = d.trailerLength kind block)
    (hblock' : block'.length = kind.blockLength d)
    (htrailer' : trailer'.length = d.trailerLength kind block') :
    d.parse kind block trailer = d.parse kind block' trailer' ↔
      AgreeOn (d.named kind) block block' ∧ trailer = trailer' := by
  have hnamed : ∀ bs : Bytes, bs.length = kind.blockLength d →
      (d.named kind).length = bs.length := fun bs hbs => (d.length_named kind).trans hbs.symm
  rw [← masked_eq_iff (hnamed block hblock) (hnamed block' hblock')]
  constructor
  · intro h
    obtain ⟨hcleared, hsame, -⟩ := layout_parse hblock htrailer
    obtain ⟨hcleared', hsame', -⟩ := layout_parse hblock' htrailer'
    rw [h] at hcleared hsame
    exact ⟨hcleared.symm.trans hcleared', hsame.symm.trans hsame'⟩
  · rintro ⟨hcleared, rfl⟩
    rw [← parse_masked hblock htrailer, hcleared, parse_masked hblock' htrailer']

/-- **Writing undoes reading, up to bits without a name.**  A block and a trailer, each as long as
it has to be, are read as a message of their kind.  It is never refused when it is written, and what
is written is as long as the image that was read and is this image with exactly those bits cleared
that have no name.  Read again it is the same message.  And two images of one kind hold the same
message if and only if they agree on all named bits. -/
theorem encode_parse (hblock : block.length = kind.blockLength d)
    (htrailer : trailer.length = d.trailerLength kind block) :
    d.kindOf (d.parse kind block trailer) = kind ∧
    (∃ cleared : Bytes,
      d.encode (d.parse kind block trailer) = .ok (kind.tag :: cleared ++ trailer) ∧
      cleared.length = block.length ∧
      (∀ i j, bit (byteAt cleared i) j
        = (bit (byteAt block i) j && bit (byteAt (d.named kind) i) j)) ∧
      trailer.length = d.trailerLength kind cleared ∧
      d.parse kind cleared trailer = d.parse kind block trailer) ∧
    ∀ block' trailer' : Bytes, block'.length = kind.blockLength d →
      trailer'.length = d.trailerLength kind block' →
      (d.parse kind block trailer = d.parse kind block' trailer' ↔
        AgreeOn (d.named kind) block block' ∧ trailer = trailer') := by
  have hnamed : (d.named kind).length = block.length := (d.length_named kind).trans hblock.symm
  obtain ⟨hcleared, hsame, hannounceable⟩ := layout_parse hblock htrailer
  refine ⟨d.kindOf_parse kind block trailer, ⟨masked (d.named kind) block, ?_, ?_, ?_, ?_, ?_⟩, ?_⟩
  · rw [encode_of_announceable hannounceable, kindOf_parse, hcleared, hsame]
  · exact length_masked hnamed
  · exact bit_masked hnamed
  · -- the length is announced by what is written as well
    have hannounced := length_trailer ((trailerError?_eq_none_iff _).2 hannounceable)
    rwa [hsame, hcleared, kindOf_parse] at hannounced
  · exact parse_masked hblock htrailer
  · intro block' trailer' hblock' htrailer'
    exact parse_eq_iff hblock htrailer hblock' htrailer'

/-- The theorem for a pin that is bound to a UART, with and without bits that have no name. -/
theorem encode_parse_of_unnamed_bits :
    let kind : Kind := .twoWay .pinUartRx
    let block : Bytes := [0b11000101, 0b01111110]
    let plain : Bytes := [0b00000101, 0b00000010]
    block.length = kind.blockLength .incoming ∧
      ([] : Bytes).length = Direction.incoming.trailerLength kind block ∧
      (∃ cleared : Bytes,
        Direction.incoming.encode (Direction.incoming.parse kind block [])
          = .ok (kind.tag :: cleared ++ []) ∧
        ∀ i j, bit (byteAt cleared i) j
          = (bit (byteAt block i) j && bit (byteAt (Direction.incoming.named kind) i) j)) ∧
      Direction.incoming.parse kind block [] = Direction.incoming.parse kind plain [] := by
  intro kind block plain
  have hblock : block.length = kind.blockLength .incoming := rfl
  have htrailer : ([] : Bytes).length = Direction.incoming.trailerLength kind block := rfl
  have hmasks : (Direction.incoming.named kind).length = block.length := rfl
  have hplain : (Direction.incoming.named kind).length = plain.length := rfl
  have hagree : AgreeOn (Direction.incoming.named kind) block plain :=
    (masked_eq_iff hmasks hplain).1 (by decide)
  obtain ⟨-, ⟨cleared, hencode, -, hbits, -⟩, hsame⟩ := encode_parse hblock htrailer
  exact ⟨hblock, htrailer, ⟨cleared, hencode, hbits⟩, (hsame plain [] rfl rfl).2 ⟨hagree, rfl⟩⟩

end Direction
end PinBridge
