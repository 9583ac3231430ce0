/-
PinBridge/Settings/Codec.lean

Settings as JSON.

Every field may be left out and then has its standard value, at the top as well
as inside `board` and `versions`; no field may be `null`.
-/
import PinBridge.Settings
import PinBridge.Json.Fields
import PinBridge.Json.Reader

namespace PinBridge

open Json

/-! ### Reading -/

def Recovery.ofJson? : Json → Option Recovery :=
  choice? ([Recovery.abort, .resync].map fun p => (p.name, p))

def BoardLimits.ofJson? (v : Json) : Option BoardLimits := do
  match ← v.fields? ["num_pins", "num_pwms", "num_uarts"] with
  | [pins, pwms, uarts] =>
    return {
      pins := ← withDefault standard.pins uint8? pins
      pwms := ← withDefault standard.pwms uint8? pwms
      uarts := ← withDefault standard.uarts uint8? uarts }
  | _ => none

def Versions.ofJson? (v : Json) : Option Versions := do
  match ← v.fields? ["hardware", "bootloader", "firmware"] with
  | [hardware, bootloader, firmware] =>
    return {
      hardware := ← withDefault standard.hardware uint16? hardware
      bootloader := ← withDefault standard.bootloader uint16? bootloader
      firmware := ← withDefault standard.firmware uint64? firmware }
  | _ => none

namespace Settings

def ofJson? (v : Json) : Option Settings := do
  match ← v.fields? ["queue_capacity", "failure_policy", "board", "identity"] with
  | [queueCapacity, recovery, board, versions] =>
    return {
      queueCapacity := ← withDefault standard.queueCapacity uint64? queueCapacity
      recovery := ← withDefault standard.recovery Recovery.ofJson? recovery
      board := ← withDefault standard.board BoardLimits.ofJson? board
      versions := ← withDefault standard.versions Versions.ofJson? versions }
  | _ => none

/-- The settings that a JSON text spells. -/
def ofText? (s : String) : Option Settings := (Json.ofText? s).bind ofJson?

end Settings

/-! ### Writing -/

def BoardLimits.toJson (l : BoardLimits) : Json :=
  .ofFields
    [("num_pins", .natural l.pins.toNat),
      ("num_pwms", .natural l.pwms.toNat),
      ("num_uarts", .natural l.uarts.toNat)]

def Versions.toJson (i : Versions) : Json :=
  .ofFields
    [("hardware", .natural i.hardware.toNat),
      ("bootloader", .natural i.bootloader.toNat),
      ("firmware", .natural i.firmware.toNat)]

def Settings.toJson (s : Settings) : Json :=
  .ofFields
    [("queue_capacity", .natural s.queueCapacity.toNat),
      ("failure_policy", .text s.recovery.name),
      ("board", s.board.toJson),
      ("identity", s.versions.toJson)]

end PinBridge
