/-
PinBridge/Json/Fields.lean

Reading records, numbers and choices out of JSON values.

A record with named fields may be an object or an array.  In an object members
with other keys are ignored and may hold anything, a field given twice is
refused, and so is a key that stands for no text.  In an array the fields stand
in their order, the last ones may be left out, and there may be no more items
than fields.  What a field's absence means is up to the record.
-/
import PinBridge.Json.Basic

namespace PinBridge.Json

/-! ### Records -/

/-- How many members have this key. -/
def countKey (key : String) (members : List (Option String × Json)) : Nat :=
  members.countP fun member => member.1 == some key

/-- The values of a record's fields, in the order of the fields; none for a field left out. -/
def fields? (names : List String) : Json → Option (List (Option Json))
  | .object members =>
    if members.any (fun member => member.1.isNone) then none
    else if names.any (fun name => 1 < countKey name members) then none
    else some (names.map fun name => members.lookup (some name))
  | .array items =>
    if names.length < items.length then none
    else some (names.mapIdx fun i _ => items[i]?)
  | _ => none

/-- The value of a field that may be left out: then it is the default, and else it must be read. -/
def withDefault {α : Type} (default : α) (read : Json → Option α) : Option Json → Option α
  | none => some default
  | some value => read value

/-- The value of a field that may not be left out. -/
def required {α : Type} (read : Json → Option α) (slot : Option Json) : Option α :=
  slot.bind read

/-! ### Scalars -/

/-- A natural number up to `max`. -/
def natUpTo? (max : Nat) : Json → Option Nat
  | .natural n => if n ≤ max then some n else none
  | _ => none

def uint8? (v : Json) : Option UInt8 := (natUpTo? (UInt8.size - 1) v).map .ofNat

def uint16? (v : Json) : Option UInt16 := (natUpTo? (UInt16.size - 1) v).map .ofNat

def uint64? (v : Json) : Option UInt64 := (natUpTo? (UInt64.size - 1) v).map .ofNat

def bool? : Json → Option Bool
  | .bool b => some b
  | _ => none

def text? : Json → Option String
  | .string text => text
  | _ => none

def items? : Json → Option (List Json)
  | .array items => some items
  | _ => none

/-- One of several named values: its name, or an object whose only member is that name with the
value `null`. -/
def choice? {α : Type} (choices : List (String × α)) : Json → Option α
  | .string (some name) => choices.lookup name
  | .object [(some name, .null)] => choices.lookup name
  | _ => none

end PinBridge.Json
