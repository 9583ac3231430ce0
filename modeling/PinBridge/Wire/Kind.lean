/-
PinBridge/Wire/Kind.lean

The sixteen kinds of message and the table that frames them.

A message is a tag byte, a fixed block and a trailer.  The tag names the kind.
Eleven kinds are two-way: host and board send them in one layout.  The other
five tags are shared by two unrelated messages, one in each direction, so their
name and the length of their fixed block depend on who is speaking.

Main statements: `ofTag?_eq_some_iff`, a byte names a kind exactly when it is
the tag of that kind; `map_all`, which gives the tables of the two directions in
full; and `table_agree_iff`, the tables agree on the two-way kinds and on no
others.
-/
import PinBridge.Wire.Bytes

namespace PinBridge

/-- Which way a message travels, as seen from the board. -/
inductive Direction where
  /-- From the host to the board. -/
  | incoming
  /-- From the board to the host. -/
  | outgoing
  deriving DecidableEq, Repr

/-- The kinds whose messages are laid out alike in both directions. -/
inductive TwoWayKind where
  | softReset
  | pinDigitalOut
  | pinDigitalIn
  | changeNotify
  | periodicSampling
  | reserved
  | pinAnalogIn
  | uartData
  | uartConfig
  | pinUartRx
  | pinUartTx
  deriving DecidableEq, Repr

/-- The kinds that mean one thing to the board and another to the host. -/
inductive OneWayKind where
  /-- Ends a session (incoming) or opens one (outgoing). -/
  | session
  /-- Drives a digital output (incoming) or tells a digital input (outgoing). -/
  | level
  /-- Binds a pin to a PWM channel (incoming) or lists the sampled pins (outgoing). -/
  | binding
  /-- Sets a duty cycle (incoming) or tells analog samples (outgoing). -/
  | sample
  /-- Sets a PWM period (incoming) or tells a UART backlog (outgoing). -/
  | timing
  deriving DecidableEq, Repr

/-- The kind of a message. -/
inductive Kind where
  | twoWay (k : TwoWayKind)
  | oneWay (k : OneWayKind)
  deriving DecidableEq, Repr

namespace Direction

/-- The directions in the order in which tables list them. -/
def all : List Direction := [.incoming, .outgoing]

def name : Direction → String
  | .incoming => "incoming"
  | .outgoing => "outgoing"

end Direction

/-! ### Two-way kinds -/

namespace TwoWayKind

/-- The byte that a message of this kind starts with. -/
def tag : TwoWayKind → UInt8
  | .softReset => 1
  | .pinDigitalOut => 2
  | .pinDigitalIn => 4
  | .changeNotify => 5
  | .periodicSampling => 6
  | .reserved => 7
  | .pinAnalogIn => 11
  | .uartData => 12
  | .uartConfig => 13
  | .pinUartRx => 14
  | .pinUartTx => 15

def name : TwoWayKind → String
  | .softReset => "SOFT_RESET"
  | .pinDigitalOut => "SET_PIN_DIGITAL_OUT"
  | .pinDigitalIn => "SET_PIN_DIGITAL_IN"
  | .changeNotify => "SET_CHANGE_NOTIFY"
  | .periodicSampling => "REGISTER_PERIODIC_DIGITAL_SAMPLING"
  | .reserved => "RESERVED"
  | .pinAnalogIn => "SET_PIN_ANALOG_IN"
  | .uartData => "UART_DATA"
  | .uartConfig => "UART_CONFIG"
  | .pinUartRx => "SET_PIN_UART_RX"
  | .pinUartTx => "SET_PIN_UART_TX"

/-- Length of the fixed block. -/
def blockLength : TwoWayKind → Nat
  | .softReset | .periodicSampling | .reserved => 0
  | .pinDigitalOut | .pinDigitalIn | .changeNotify | .pinAnalogIn => 1
  | .uartData | .pinUartRx | .pinUartTx => 2
  | .uartConfig => 3

end TwoWayKind

/-! ### One-way kinds -/

namespace OneWayKind

/-- The byte that a message of this kind starts with. -/
def tag : OneWayKind → UInt8
  | .session => 0
  | .level => 3
  | .binding => 8
  | .sample => 9
  | .timing => 10

def name : Direction → OneWayKind → String
  | .incoming, .session => "HARD_RESET"
  | .incoming, .level => "SET_DIGITAL_OUT_LEVEL"
  | .incoming, .binding => "SET_PIN_PWM"
  | .incoming, .sample => "SET_PWM_DUTY_CYCLE"
  | .incoming, .timing => "SET_PWM_PERIOD"
  | .outgoing, .session => "ESTABLISH_CONNECTION"
  | .outgoing, .level => "REPORT_DIGITAL_IN_STATUS"
  | .outgoing, .binding => "REPORT_ANALOG_IN_FORMAT"
  | .outgoing, .sample => "REPORT_ANALOG_IN_STATUS"
  | .outgoing, .timing => "UART_REPORT_TX_STATUS"

/-- Length of the fixed block. -/
def blockLength : Direction → OneWayKind → Nat
  | .incoming, .session => 4
  | .incoming, .level => 1
  | .incoming, .binding => 2
  | .incoming, .sample => 3
  | .incoming, .timing => 3
  | .outgoing, .session => 16
  | .outgoing, .level => 1
  | .outgoing, .binding => 1
  | .outgoing, .sample => 1
  | .outgoing, .timing => 2

end OneWayKind

namespace Kind

/-! ### Tags -/

/-- Every kind, in the order of the tags. -/
def all : List Kind :=
  [.oneWay .session, .twoWay .softReset, .twoWay .pinDigitalOut, .oneWay .level,
    .twoWay .pinDigitalIn, .twoWay .changeNotify, .twoWay .periodicSampling, .twoWay .reserved,
    .oneWay .binding, .oneWay .sample, .oneWay .timing, .twoWay .pinAnalogIn,
    .twoWay .uartData, .twoWay .uartConfig, .twoWay .pinUartRx, .twoWay .pinUartTx]

/-- The byte that a message of this kind starts with. -/
def tag : Kind → UInt8
  | .twoWay k => k.tag
  | .oneWay k => k.tag

/-- The kind that a byte is the tag of; bytes from 16 up are no tags. -/
def ofTag? (b : UInt8) : Option Kind := all[b.toNat]?

@[simp] theorem ofTag?_tag (k : Kind) : ofTag? k.tag = some k := by
  rcases k with k | k <;> cases k <;> rfl

/-- The kinds stand in the order of their tags. -/
theorem toNat_tag_all (i : Fin all.length) : all[i].tag.toNat = i := by
  decide +revert

/-- **A byte names a kind exactly when it is that kind's tag.** -/
theorem ofTag?_eq_some_iff {b : UInt8} {k : Kind} : ofTag? b = some k ↔ b = k.tag := by
  refine ⟨fun h => ?_, fun h => h ▸ ofTag?_tag k⟩
  obtain ⟨hlt, rfl⟩ := List.getElem?_eq_some_iff.1 h
  exact UInt8.toNat_inj.1 (toNat_tag_all ⟨b.toNat, hlt⟩).symm

/-- The bytes from 16 up are no tags. -/
theorem ofTag?_eq_none_iff {b : UInt8} : ofTag? b = none ↔ 16 ≤ b.toNat :=
  List.getElem?_eq_none_iff

/-! ### Names and sizes -/

/-- What a message of this kind is called in its direction. -/
def name (d : Direction) : Kind → String
  | .twoWay k => k.name
  | .oneWay k => k.name d

/-- Length of the fixed block that follows the tag. -/
def blockLength (d : Direction) : Kind → Nat
  | .twoWay k => k.blockLength
  | .oneWay k => k.blockLength d

end Kind

/-! ### The two tables -/

/-- What the tags from 0 to 15 stand for in a direction, and how long the fixed blocks are.  Nothing
else frames a stream, so both ends have to agree on every entry. -/
def Direction.table : Direction → List (String × Nat)
  | .incoming =>
    [("HARD_RESET", 4),
      ("SOFT_RESET", 0),
      ("SET_PIN_DIGITAL_OUT", 1),
      ("SET_DIGITAL_OUT_LEVEL", 1),
      ("SET_PIN_DIGITAL_IN", 1),
      ("SET_CHANGE_NOTIFY", 1),
      ("REGISTER_PERIODIC_DIGITAL_SAMPLING", 0),
      ("RESERVED", 0),
      ("SET_PIN_PWM", 2),
      ("SET_PWM_DUTY_CYCLE", 3),
      ("SET_PWM_PERIOD", 3),
      ("SET_PIN_ANALOG_IN", 1),
      ("UART_DATA", 2),
      ("UART_CONFIG", 3),
      ("SET_PIN_UART_RX", 2),
      ("SET_PIN_UART_TX", 2)]
  | .outgoing =>
    [("ESTABLISH_CONNECTION", 16),
      ("SOFT_RESET", 0),
      ("SET_PIN_DIGITAL_OUT", 1),
      ("REPORT_DIGITAL_IN_STATUS", 1),
      ("SET_PIN_DIGITAL_IN", 1),
      ("SET_CHANGE_NOTIFY", 1),
      ("REGISTER_PERIODIC_DIGITAL_SAMPLING", 0),
      ("RESERVED", 0),
      ("REPORT_ANALOG_IN_FORMAT", 1),
      ("REPORT_ANALOG_IN_STATUS", 1),
      ("UART_REPORT_TX_STATUS", 2),
      ("SET_PIN_ANALOG_IN", 1),
      ("UART_DATA", 2),
      ("UART_CONFIG", 3),
      ("SET_PIN_UART_RX", 2),
      ("SET_PIN_UART_TX", 2)]

namespace Kind

/-- **Names and sizes of all kinds are those of the table.** -/
theorem map_all (d : Direction) : all.map (fun k => (k.name d, k.blockLength d)) = d.table := by
  cases d <;> rfl

/-- The entry for a kind stands where its tag says. -/
theorem getElem?_table (d : Direction) (k : Kind) :
    d.table[k.tag.toNat]? = some (k.name d, k.blockLength d) := by
  have hall : all[k.tag.toNat]? = some k := ofTag?_tag k
  rw [← map_all, List.getElem?_map, hall]
  rfl

/-- **The two tables agree on the two-way kinds**, and on no others. -/
theorem table_agree_iff (k : Kind) :
    Direction.incoming.table[k.tag.toNat]? = Direction.outgoing.table[k.tag.toNat]?
      ↔ ∃ m, k = .twoWay m := by
  rw [getElem?_table, getElem?_table]
  cases k with
  | twoWay m => exact iff_of_true rfl ⟨m, rfl⟩
  | oneWay k =>
    -- the names differ
    refine iff_of_false ?_ (fun ⟨_, h⟩ => nomatch h)
    cases k <;> decide

/-- So the blocks of a two-way kind have one length in both directions. -/
theorem blockLength_of_twoWay (d d' : Direction) (m : TwoWayKind) :
    (twoWay m).blockLength d = (twoWay m).blockLength d' := by
  have hagree : (twoWay m).blockLength .incoming = (twoWay m).blockLength .outgoing := by
    have htable := (table_agree_iff (.twoWay m)).2 ⟨m, rfl⟩
    rw [getElem?_table, getElem?_table] at htable
    exact (Prod.mk.inj (Option.some.inj htable)).2
  cases d <;> cases d'
  · rfl
  · exact hagree
  · exact hagree.symm
  · rfl

end Kind

namespace Wire

/-! ### Bounds of the format -/

/-- How many kinds there are. -/
def kindCount : Nat := Kind.all.length

/-- The number that a hard reset and an announced connection carry. -/
def magic : UInt32 := 0x4F494F49

/-- The channel number that unbinds a pin from its PWM channel. -/
def noPwm : UInt8 := 0x0F

/-- The longest fixed block of either direction. -/
def longestBlock : Nat := 16

/-- The longest trailer of either direction: 255 two-byte samples. -/
def longestTrailer : Nat := 510

/-- No message is longer than this: tag, fixed block and trailer at their longest. -/
def longestMessage : Nat := 1 + longestBlock + longestTrailer

end Wire

/-- No fixed block is longer than the longest one. -/
theorem Kind.blockLength_le (d : Direction) (k : Kind) : k.blockLength d ≤ Wire.longestBlock := by
  rcases k with k | k
  · cases d <;> cases k <;> decide
  · cases d <;> cases k <;> decide

end PinBridge
