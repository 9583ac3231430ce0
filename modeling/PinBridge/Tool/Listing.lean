/-
PinBridge/Tool/Listing.lean

A stream as a list of its messages.

`listStream` feeds a stream to a receiver piece by piece and stops at the first
piece that fails.  Each message becomes an entry that says what it is, how it
lay on the wire and what it holds.
-/
import PinBridge.Wire.Describe
import PinBridge.Receiver.Basic
import PinBridge.Json.Basic
import PinBridge.Tool.Sheet

namespace PinBridge.Tool

/-- A message in a listing. -/
structure Entry where
  tag : UInt8
  name : String
  length : Nat
  /-- The bytes of the message in hexadecimal digits. -/
  wire : String
  fields : String
  deriving DecidableEq, Repr

namespace Entry

/-- The entry of a message. -/
def ofReceived (d : Direction) (r : Received d) : Entry :=
  let tag := Wire.byteAt r.wire 0
  { tag
    name := ((Kind.ofTag? tag).map (Kind.name d)).getD "UNKNOWN"
    length := r.wire.length
    wire := Text.hexSpaced r.wire
    fields := d.describe r.message }

def toJson (r : Entry) : Json :=
  .ofFields
    [("tag", .natural r.tag.toNat),
      ("name", .text r.name),
      ("len", .natural r.length),
      ("wire", .text r.wire),
      ("fields", .text r.fields)]

end Entry

/-- The messages of a stream, and how the stream ends. -/
structure Listing where
  records : List Entry
  dropped : Nat
  /-- Whether the stream ends inside a message. -/
  trailing : Bool
  error : Option StreamError
  deriving DecidableEq, Repr

/-- Take down a message. -/
def record (d : Direction) : Handler d StreamError (List Entry) := fun received =>
  modify (Entry.ofReceived d received :: ·)

/-- The messages of a stream that is fed in pieces. -/
def listStream (d : Direction) (recovery : Recovery) (chunk : Nat) (stream : Bytes) : Listing :=
  let feedAll := (Wire.chunksOf chunk stream).forM (Receiver.feed id (record d))
  match feedAll (Receiver.new recovery, []) with
  | .ok _ (receiver, records) => ⟨records.reverse, receiver.dropped, receiver.isMidway, none⟩
  | .error e (receiver, records) => ⟨records.reverse, receiver.dropped, receiver.isMidway, some e⟩

/-- Entries in rows. -/
def entrySheet (records : List Entry) : Sheet where
  header := ["#", "TYPE", "LEN", "WIRE", "FIELDS"]
  rows := records.mapIdx fun i r => [toString i, r.name, toString r.length, r.wire, r.fields]

end PinBridge.Tool
