/-
PinBridge/Settings.lean

What a session can be told: the capacity of its queue, what to do on failure,
the limits of its board, and the versions that it announces.
-/
import PinBridge.Receiver.Basic
import PinBridge.Board.Limits
import PinBridge.Queue

namespace PinBridge

/-- The versions that a board announces. -/
structure Versions where
  hardware : UInt16
  bootloader : UInt16
  firmware : UInt64
  deriving DecidableEq, Repr

namespace Versions

/-- The versions announced unless settings say otherwise. -/
def standard : Versions := ⟨0, 1, 1⟩

/-- The versions in a trace. -/
def describe (i : Versions) : String :=
  Text.record "DeviceIdentity"
    [("hardware", toString i.hardware), ("bootloader", toString i.bootloader),
      ("firmware", toString i.firmware)]

end Versions

/-- The settings of a session. -/
structure Settings where
  /-- How many bytes the queue holds. -/
  queueCapacity : UInt64
  recovery : Recovery
  board : BoardLimits
  versions : Versions
  deriving DecidableEq, Repr

namespace Settings

/-- The settings of a session that is told nothing. -/
def standard : Settings := ⟨.ofNat Queue.standardCapacity, .abort, .standard, .standard⟩

/-- The settings in a trace. -/
def describe (s : Settings) : String :=
  Text.record "ProtocolConfig"
    [("queue_capacity", toString s.queueCapacity),
      ("failure_policy", s.recovery.describe),
      ("board", s.board.describe),
      ("identity", s.versions.describe)]

end Settings
end PinBridge
