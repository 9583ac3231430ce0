/-
PinBridge/Proofs/Wire/Widths.lean

What is left of a message that is written and read back.

Every field is cut to the width of its place, and a UART backlog to the largest
one that can be told: that is `narrow`.  Nothing else is lost, so a message
comes back as it was exactly if its fields fit their places (`Fits`), and what
is read always fits.

A message is refused when it is written only for the number of entries in its
trailer (`Announceable`).

Main statements: `Direction.parse_layout`, what is written is read back narrowed;
`Direction.narrow_eq_iff` and `Direction.narrow_parse`; and
`Direction.encode_error_iff`.
-/
import PinBridge.Wire.Message
import PinBridge.Proofs.Wire.Fields

namespace PinBridge

namespace Wire

/-- A number is its own remainder exactly if it is below the divisor. -/
theorem mod_eq_self_iff {v k : UInt8} (hk : 0 < k) : v % k = v ↔ v < k := by
  rw [← UInt8.toNat_inj, UInt8.toNat_mod, UInt8.lt_iff_toNat_lt]
  exact Nat.mod_eq_iff_lt (Nat.ne_of_gt (UInt8.lt_iff_toNat_lt.1 hk))

theorem bits_zero_two (v : UInt8) : bits v 0 2 = v % 4 := bits_zero v (by decide)

theorem bits_zero_four (v : UInt8) : bits v 0 4 = v % 16 := bits_zero v (by decide)

theorem bits_zero_six (v : UInt8) : bits v 0 6 = v % 64 := bits_zero v (by decide)

end Wire

open Wire

/-! ### Two-way messages -/

namespace TwoWay

/-- Six bits are left of a pin, and two of a pull, of a UART and of a parity. -/
def narrow : TwoWay → TwoWay
  | .pinDigitalOut pin value openDrain => .pinDigitalOut (pin % 64) value openDrain
  | .pinDigitalIn pin pull => .pinDigitalIn (pin % 64) (pull % 4)
  | .changeNotify pin enabled => .changeNotify (pin % 64) enabled
  | .pinAnalogIn pin => .pinAnalogIn (pin % 64)
  | .uartData uart data => .uartData (uart % 4) data
  | .uartConfig uart rate speed4x twoStopBits parity =>
    .uartConfig (uart % 4) rate speed4x twoStopBits (parity % 4)
  | .pinUartRx pin uart enable => .pinUartRx (pin % 64) (uart % 4) enable
  | .pinUartTx pin uart enable => .pinUartTx (pin % 64) (uart % 4) enable
  | m => m

/-- Every field is within the width of its place. -/
def Fits : TwoWay → Prop
  | .pinDigitalOut pin .. | .changeNotify pin _ | .pinAnalogIn pin => pin < 64
  | .pinDigitalIn pin pull => pin < 64 ∧ pull < 4
  | .uartData uart _ => uart < 4
  | .uartConfig uart _ _ _ parity => uart < 4 ∧ parity < 4
  | .pinUartRx pin uart _ | .pinUartTx pin uart _ => pin < 64 ∧ uart < 4
  | _ => True

/-- The number of entries can be announced. -/
def Announceable : TwoWay → Prop
  | .uartData _ data => 1 ≤ data.length ∧ data.length ≤ 256
  | _ => True

theorem narrow_eq_iff (m : TwoWay) : m.narrow = m ↔ m.Fits := by
  have hpin : ∀ v : UInt8, v % 64 = v ↔ v < 64 := fun v => mod_eq_self_iff (by decide)
  have htwo : ∀ v : UInt8, v % 4 = v ↔ v < 4 := fun v => mod_eq_self_iff (by decide)
  cases m <;> simp [narrow, Fits, hpin, htwo]

/-- **What is written is read back narrowed.** -/
theorem parse_layout (m : TwoWay) : parse m.kind m.block m.layout.trailer = m.narrow := by
  cases m with
  | softReset | periodicSampling | reserved => rfl
  | pinDigitalOut pin value openDrain =>
    have hflags : Below (place openDrain.toUInt8 0 1 + place value.toUInt8 1 1) 2 :=
      below_add_place (below_place (by decide) (by decide)) (by decide) (by decide)
    simp [parse, kind, block, narrow, byteAt, placeBit_eq_place, bit_eq_bits, hflags,
      ← bits_zero_six]
  | pinDigitalIn pin pull =>
    simp [parse, kind, block, narrow, byteAt, ← bits_zero_six, ← bits_zero_two]
  | changeNotify pin enabled =>
    simp [parse, kind, block, narrow, byteAt, placeBit_eq_place, bit_eq_bits, ← bits_zero_six]
  | pinAnalogIn pin => simp [parse, kind, block, narrow, byteAt, ← bits_zero_six]
  | uartData uart data => simp [parse, kind, block, narrow, byteAt, layout, ← bits_zero_two]
  | uartConfig uart rate speed4x twoStopBits parity =>
    have hrate : word16At (block (.uartConfig uart rate speed4x twoStopBits parity)) 1 = rate :=
      word16At_littleEndian rate rfl
    have hstop : Below (place parity 0 2 + place twoStopBits.toUInt8 2 1) 3 :=
      below_add_place (below_place (by decide) (by decide)) (by decide) (by decide)
    have hspeed : Below (place parity 0 2 + place twoStopBits.toUInt8 2 1
        + place speed4x.toUInt8 3 1) 6 :=
      below_add_place hstop (by decide) (by decide)
    have hbyte : byteAt (block (.uartConfig uart rate speed4x twoStopBits parity)) 0
        = place parity 0 2 + place twoStopBits.toUInt8 2 1 + place speed4x.toUInt8 3 1
          + place uart 6 2 := by
      rw [← placeBit_eq_place, ← placeBit_eq_place]
      rfl
    simp only [parse, kind, hrate, hbyte, narrow, bit_eq_bits]
    simp [hstop, hspeed, ← bits_zero_two]
  | pinUartRx pin uart enable =>
    simp [parse, kind, block, pinUartBlock, narrow, byteAt, placeBit_eq_place, bit_eq_bits,
      ← bits_zero_six, ← bits_zero_two]
  | pinUartTx pin uart enable =>
    simp [parse, kind, block, pinUartBlock, narrow, byteAt, placeBit_eq_place, bit_eq_bits,
      ← bits_zero_six, ← bits_zero_two]

/-- What is read fits. -/
theorem fits_parse (kind : TwoWayKind) (block trailer : Bytes) :
    (parse kind block trailer).Fits := by
  have hpin : ∀ (b : UInt8) (low : Nat), bits b low 6 < 64 := fun b low =>
    UInt8.lt_iff_toNat_lt.2 (bits_lt b low (by decide))
  have htwo : ∀ (b : UInt8) (low : Nat), bits b low 2 < 4 := fun b low =>
    UInt8.lt_iff_toNat_lt.2 (bits_lt b low (by decide))
  cases kind <;> simp [parse, Fits, hpin, htwo]

/-- A message is refused for the number of its entries. -/
theorem trailerError?_eq_none_iff (m : TwoWay) :
    m.layout.trailerError? = none ↔ m.Announceable := by
  cases m <;> simp [layout, Layout.trailerError?, Announceable, uartDataMin, uartDataMax]

end TwoWay

/-! ### Commands -/

namespace Command

/-- Six bits are left of a pin, four of a PWM channel, and two of a fraction. -/
def narrow : Command → Command
  | .twoWay m => .twoWay m.narrow
  | .hardReset magic => .hardReset magic
  | .digitalOutLevel pin value => .digitalOutLevel (pin % 64) value
  | .pinPwm pin pwm => .pinPwm (pin % 64) (pwm % 16)
  | .pwmDutyCycle pwm dutyCycle fraction => .pwmDutyCycle (pwm % 16) dutyCycle (fraction % 4)
  | .pwmPeriod pwm period scale256 => .pwmPeriod (pwm % 16) period scale256

/-- Every field is within the width of its place. -/
def Fits : Command → Prop
  | .twoWay m => m.Fits
  | .hardReset _ => True
  | .digitalOutLevel pin _ => pin < 64
  | .pinPwm pin pwm => pin < 64 ∧ pwm < 16
  | .pwmDutyCycle pwm _ fraction => pwm < 16 ∧ fraction < 4
  | .pwmPeriod pwm .. => pwm < 16

/-- The number of entries can be announced. -/
def Announceable : Command → Prop
  | .twoWay m => m.Announceable
  | _ => True

theorem narrow_eq_iff (c : Command) : c.narrow = c ↔ c.Fits := by
  have hpin : ∀ v : UInt8, v % 64 = v ↔ v < 64 := fun v => mod_eq_self_iff (by decide)
  have hfour : ∀ v : UInt8, v % 16 = v ↔ v < 16 := fun v => mod_eq_self_iff (by decide)
  have htwo : ∀ v : UInt8, v % 4 = v ↔ v < 4 := fun v => mod_eq_self_iff (by decide)
  cases c with
  | twoWay m => simp [narrow, Fits, m.narrow_eq_iff]
  | _ => simp [narrow, Fits, hpin, hfour, htwo]

/-- **What is written is read back narrowed.** -/
theorem parse_layout (c : Command) : parse c.kind c.layout.block c.layout.trailer = c.narrow := by
  cases c with
  | twoWay m => exact congrArg Command.twoWay m.parse_layout
  | hardReset magic =>
    have hmagic : word32At (littleEndian 4 magic.toNat) 0 = magic := word32At_littleEndian magic rfl
    exact congrArg Command.hardReset hmagic
  | digitalOutLevel pin value =>
    simp [parse, kind, layout, Layout.fixed, narrow, byteAt, placeBit_eq_place, bit_eq_bits,
      ← bits_zero_six]
  | pinPwm pin pwm =>
    simp [parse, kind, layout, Layout.fixed, narrow, byteAt, ← bits_zero_six, ← bits_zero_four]
  | pwmDutyCycle pwm dutyCycle fraction =>
    have hduty : ∀ b : UInt8, word16At (b :: littleEndian 2 dutyCycle.toNat) 1 = dutyCycle :=
      fun b => word16At_littleEndian dutyCycle rfl
    simp [parse, kind, layout, Layout.fixed, narrow, byteAt, hduty, ← bits_zero_four,
      ← bits_zero_two]
  | pwmPeriod pwm period scale256 =>
    have hperiod : ∀ b : UInt8, word16At (b :: littleEndian 2 period.toNat) 1 = period :=
      fun b => word16At_littleEndian period rfl
    simp [parse, kind, layout, Layout.fixed, narrow, byteAt, hperiod, placeBit_eq_place,
      bit_eq_bits, ← bits_zero_four]

/-- What is read fits. -/
theorem fits_parse (kind : Kind) (block trailer : Bytes) : (parse kind block trailer).Fits := by
  have hbound : ∀ (b : UInt8) (low : Nat), bits b low 6 < 64 ∧ bits b low 4 < 16 ∧
      bits b low 2 < 4 := by
    intro b low
    refine ⟨?_, ?_, ?_⟩ <;> exact UInt8.lt_iff_toNat_lt.2 (bits_lt b low (by decide))
  rcases kind with kind | kind
  · exact TwoWay.fits_parse kind block trailer
  · cases kind <;> simp [parse, Fits, hbound]

theorem trailerError?_eq_none_iff (c : Command) :
    c.layout.trailerError? = none ↔ c.Announceable := by
  cases c with
  | twoWay m => exact m.trailerError?_eq_none_iff
  | _ => exact iff_of_true rfl trivial

end Command

/-! ### Reports -/

namespace Report

/-- Six bits are left of a pin, two of a UART, and of a backlog what can be told. -/
def narrow : Report → Report
  | .twoWay m => .twoWay m.narrow
  | .digitalInStatus pin level => .digitalInStatus (pin % 64) level
  | .uartTxStatus uart remaining =>
    .uartTxStatus (uart % 4) (.ofNat (min remaining.toNat uartRemainingMax))
  | r => r

/-- Every field is within the width of its place. -/
def Fits : Report → Prop
  | .twoWay m => m.Fits
  | .digitalInStatus pin _ => pin < 64
  | .uartTxStatus uart remaining => uart < 4 ∧ remaining ≤ 0x3FFF
  | _ => True

/-- The number of entries can be announced. -/
def Announceable : Report → Prop
  | .twoWay m => m.Announceable
  | .analogInFormat pins => pins.length ≤ 255
  | .analogInStatus samples => samples.length ≤ 255
  | _ => True

theorem narrow_eq_iff (r : Report) : r.narrow = r ↔ r.Fits := by
  have hpin : ∀ v : UInt8, v % 64 = v ↔ v < 64 := fun v => mod_eq_self_iff (by decide)
  have htwo : ∀ v : UInt8, v % 4 = v ↔ v < 4 := fun v => mod_eq_self_iff (by decide)
  have hbacklog : ∀ n : UInt16, .ofNat (min n.toNat uartRemainingMax) = n ↔ n ≤ 0x3FFF := by
    intro n
    have hmax : min n.toNat uartRemainingMax < UInt16.size :=
      Nat.lt_of_le_of_lt (Nat.min_le_right _ _) (by decide)
    rw [← UInt16.toNat_inj, UInt16.toNat_ofNat_of_lt' hmax, UInt16.le_iff_toNat_le]
    show min n.toNat 0x3FFF = n.toNat ↔ n.toNat ≤ 0x3FFF
    omega
  cases r with
  | twoWay m => simp [narrow, Fits, m.narrow_eq_iff]
  | uartTxStatus uart remaining => simp [narrow, Fits, htwo, hbacklog]
  | _ => simp [narrow, Fits, hpin]

/-- Samples are read back as they were written. -/
theorem samplesOf_flatMap (samples : List UInt16) :
    samplesOf (samples.flatMap fun s => littleEndian 2 s.toNat) = samples := by
  induction samples with
  | nil => rfl
  | cons s samples ih =>
    have hword : word16At (littleEndian 2 s.toNat) 0 = s := word16At_littleEndian s rfl
    have hcons : ∀ rest : Bytes, samplesOf (littleEndian 2 s.toNat ++ rest)
        = word16At (littleEndian 2 s.toNat) 0 :: samplesOf rest := fun _ => rfl
    rw [List.flatMap_cons, hcons, hword, ih]

/-- A backlog and its UART are read back from the word that they share. -/
theorem parse_backlog (uart : UInt8) (remaining : UInt16) :
    parse (.oneWay .timing) (layout (.uartTxStatus uart remaining)).block []
      = (uartTxStatus uart remaining).narrow := by
  let word : Nat := uart.toNat % 4 + min remaining.toNat uartRemainingMax * 4
  have hremaining : min remaining.toNat uartRemainingMax ≤ 0x3FFF := Nat.min_le_right _ _
  have hword : word < UInt16.size := by
    show uart.toNat % 4 + min remaining.toNat uartRemainingMax * 4 < 65536
    omega
  have hread : word16At (littleEndian 2 word) 0 = .ofNat word := by
    refine word16At_littleEndian (.ofNat word) ?_
    rw [UInt16.toNat_ofNat_of_lt' hword]
    rfl
  have huart : UInt8.ofNat (word % 4) = uart % 4 := by
    have hmod : word % 4 = uart.toNat % 4 :=
      (Nat.add_mul_mod_self_right _ _ _).trans (Nat.mod_mod _ _)
    have hlt : uart.toNat % 4 < UInt8.size :=
      Nat.lt_trans (Nat.mod_lt _ (by decide : 0 < 4)) (by decide)
    apply UInt8.toNat_inj.1
    rw [hmod, UInt8.toNat_ofNat_of_lt' hlt, UInt8.toNat_mod]
    rfl
  have hbacklog : word / 4 = min remaining.toNat uartRemainingMax := by
    show (uart.toNat % 4 + min remaining.toNat uartRemainingMax * 4) / 4 = _
    omega
  show Report.uartTxStatus (.ofNat ((word16At (littleEndian 2 word) 0).toNat % 4))
    (.ofNat ((word16At (littleEndian 2 word) 0).toNat / 4)) = _
  rw [hread, UInt16.toNat_ofNat_of_lt' hword, huart, hbacklog]
  rfl

/-- **What is written is read back narrowed.** -/
theorem parse_layout (r : Report) : parse r.kind r.layout.block r.layout.trailer = r.narrow := by
  cases r with
  | twoWay m => exact congrArg Report.twoWay m.parse_layout
  | connection magic hardware bootloader firmware =>
    have hmagic : word32At (layout (.connection magic hardware bootloader firmware)).block 0
        = magic := word32At_littleEndian magic rfl
    have hhardware : word16At (layout (.connection magic hardware bootloader firmware)).block 4
        = hardware := word16At_littleEndian hardware rfl
    have hbootloader : word16At (layout (.connection magic hardware bootloader firmware)).block 6
        = bootloader := word16At_littleEndian bootloader rfl
    have hfirmware : word64At (layout (.connection magic hardware bootloader firmware)).block 8
        = firmware := word64At_littleEndian firmware rfl
    simp only [parse, kind, hmagic, hhardware, hbootloader, hfirmware, narrow]
  | digitalInStatus pin level =>
    simp [parse, kind, layout, Layout.fixed, narrow, byteAt, placeBit_eq_place, bit_eq_bits,
      ← bits_zero_six]
  | analogInFormat pins => rfl
  | analogInStatus samples => exact congrArg Report.analogInStatus (samplesOf_flatMap samples)
  | uartTxStatus uart remaining => exact parse_backlog uart remaining

/-- What is read fits. -/
theorem fits_parse (kind : Kind) (block trailer : Bytes) : (parse kind block trailer).Fits := by
  rcases kind with kind | kind
  · exact TwoWay.fits_parse kind block trailer
  · cases kind with
    | level => exact UInt8.lt_iff_toNat_lt.2 (bits_lt _ _ (by decide))
    | timing =>
      have hword : (word16At block 0).toNat < 65536 := UInt16.toNat_lt _
      have huart : (word16At block 0).toNat % 4 < 4 := Nat.mod_lt _ (by decide)
      have hbacklog : (word16At block 0).toNat / 4 ≤ 0x3FFF := by omega
      refine ⟨UInt8.lt_iff_toNat_lt.2 ?_, UInt16.le_iff_toNat_le.2 ?_⟩
      · rw [UInt8.toNat_ofNat_of_lt' (Nat.lt_trans huart (by decide))]
        exact huart
      · rw [UInt16.toNat_ofNat_of_lt' (Nat.lt_of_le_of_lt hbacklog (by decide))]
        exact hbacklog
    | _ => exact trivial

theorem trailerError?_eq_none_iff (r : Report) :
    r.layout.trailerError? = none ↔ r.Announceable := by
  cases r with
  | twoWay m => exact m.trailerError?_eq_none_iff
  | analogInFormat pins => simp [layout, Layout.trailerError?, Announceable, analogMax]
  | analogInStatus samples => simp [layout, Layout.trailerError?, Announceable, analogMax]
  | _ => exact iff_of_true rfl trivial

end Report

/-! ### Messages of either direction -/

namespace Direction

/-- The message with every field cut to the width of its place. -/
def narrow : (d : Direction) → d.Message → d.Message
  | .incoming => Command.narrow
  | .outgoing => Report.narrow

/-- Every field is within the width of its place. -/
def Fits : (d : Direction) → d.Message → Prop
  | .incoming => Command.Fits
  | .outgoing => Report.Fits

/-- The number of entries can be announced. -/
def Announceable : (d : Direction) → d.Message → Prop
  | .incoming => Command.Announceable
  | .outgoing => Report.Announceable

variable {d : Direction}

/-- **A message is narrow exactly if its fields fit.** -/
theorem narrow_eq_iff (m : d.Message) : d.narrow m = m ↔ d.Fits m := by
  cases d
  · exact Command.narrow_eq_iff m
  · exact Report.narrow_eq_iff m

/-- **What is written is read back narrowed.** -/
theorem parse_layout (m : d.Message) :
    d.parse (d.kindOf m) (d.layout m).block (d.layout m).trailer = d.narrow m := by
  cases d
  · exact Command.parse_layout m
  · exact Report.parse_layout m

/-- **What is read is narrow.** -/
theorem narrow_parse (kind : Kind) (block trailer : Bytes) :
    d.narrow (d.parse kind block trailer) = d.parse kind block trailer := by
  rw [narrow_eq_iff]
  cases d
  · exact Command.fits_parse kind block trailer
  · exact Report.fits_parse kind block trailer

theorem trailerError?_eq_none_iff (m : d.Message) :
    (d.layout m).trailerError? = none ↔ d.Announceable m := by
  cases d
  · exact Command.trailerError?_eq_none_iff m
  · exact Report.trailerError?_eq_none_iff m

/-- What is not refused is written as tag, block and trailer. -/
theorem encode_of_announceable {m : d.Message} (h : d.Announceable m) :
    d.encode m = .ok ((d.kindOf m).tag :: (d.layout m).block ++ (d.layout m).trailer) := by
  rw [encode, Layout.encode_eq, (trailerError?_eq_none_iff m).2 h, d.kind_layout]

/-- **A message is refused for the number of its entries, and for nothing else.** -/
theorem encode_error_iff (m : d.Message) :
    (∃ e, d.encode m = .error e) ↔ ¬ d.Announceable m := by
  rw [← trailerError?_eq_none_iff, encode, Layout.encode_eq]
  cases (d.layout m).trailerError? with
  | none => simp
  | some e => simp

end Direction
end PinBridge
