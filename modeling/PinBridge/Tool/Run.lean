/-
PinBridge/Tool/Run.lean

The tasks of the command line, from arguments and files to an exit code, the
text to print and the line that explains a failure.

A report is printed before the failure that it tells of.
-/
import PinBridge.Tool.Arguments
import PinBridge.Tool.Simulation
import PinBridge.Settings.Codec
import PinBridge.Board.Codec

namespace PinBridge.Tool

/-- How a run ends. -/
structure Outcome where
  code : Nat
  stdout : String
  message : Option String
  deriving DecidableEq, Repr

namespace Outcome

/-- A run that prints something and succeeds. -/
def success (stdout : String) : Outcome := ⟨Code.success, stdout, none⟩

/-- A run that prints something and fails. -/
def failed (stdout : String) (f : Failure) : Outcome := ⟨f.code, stdout, some f.message⟩

/-- The end of a run in which something may have gone wrong after the report. -/
def ofReport (stdout : String) : Option Failure → Outcome
  | none => success stdout
  | some f => failed stdout f

end Outcome

/-! ### Input and output -/

def readFile (files : Files) (path : String) : Except Failure Bytes :=
  (files path).mapError (.ofFile ("failed reading " ++ path))

/-- The stream that a task is about. -/
def readStream (files : Files) (input : Source) : Except Failure Bytes :=
  match input.hex, input.file with
  | some hex, _ => (Text.readHex hex).mapError .ofHex
  | none, some path => readFile files path
  | none, none => .error ⟨Code.usage, "a hex stream or --file is required"⟩

/-- Bytes as text in UTF-8. -/
def textOf? (bs : Bytes) : Option String := String.fromUTF8? ⟨bs.toArray⟩

/-- The settings in a file, or the standard ones without a file. -/
def readSettings (files : Files) : Option String → Except Failure Settings
  | none => .ok .standard
  | some path => do
    let bytes ← readFile files path
    match textOf? bytes with
    | none => throw (.ofFile ("failed reading " ++ path) .notText)
    | some text =>
      match Settings.ofText? text with
      | none => throw ⟨Code.usage, "invalid configuration " ++ path⟩
      | some settings => return settings

/-- A result in the format asked for. -/
def print (format : Format) (value : Json) (sheet : Sheet) : String :=
  match format with
  | .json => value.render ++ "\n"
  | .table => Sheet.unlines sheet.tableLines
  | .pretty => Sheet.unlines sheet.prettyLines
  | .raw => Sheet.unlines sheet.rawLines

/-- The name of the schema that a report follows. -/
def schema (report : String) : Json :=
  .text ("https://schemas.3leaps.dev/pinwire/cli/v1/" ++ report ++ ".schema.json")

/-! ### Tasks -/

def kindSheet : Sheet where
  header := ["TAG", "INCOMING", "IN", "OUTGOING", "OUT"]
  rows := Kind.all.map fun k =>
    ["0x" ++ Text.upperHex 2 k.tag.toNat,
      k.name .incoming, toString (k.blockLength .incoming),
      k.name .outgoing, toString (k.blockLength .outgoing)]

def kindJson (k : Kind) : Json :=
  .ofFields
    [("tag", .natural k.tag.toNat),
      ("incoming", .text (k.name .incoming)),
      ("incoming_args", .natural (k.blockLength .incoming)),
      ("outgoing", .text (k.name .outgoing)),
      ("outgoing_args", .natural (k.blockLength .outgoing))]

/-- The kinds of message. -/
def runTable (format : Format) : Outcome :=
  let value := Json.ofFields
    [("schema_id", schema "type-table"), ("types", .array (Kind.all.map kindJson))]
  .success (print format value kindSheet)

/-- The messages of a stream. -/
def runDecode (files : Files) (format : Format) (input : Source) (d : Direction)
    (recovery : Recovery) : Except Failure Outcome := do
  let stream ← readStream files input
  let listing := listStream d recovery (input.pieceLength stream.length) stream
  let error := listing.error.map StreamError.message
  let value := Json.ofFields
    [("schema_id", schema "decode-report"),
      ("direction", .text d.name),
      ("bytes", .natural stream.length),
      ("messages", .array (listing.records.map Entry.toJson)),
      ("dropped", .natural listing.dropped),
      ("trailing_bytes", .bool listing.trailing),
      ("error", .optional .text error)]
  let failure := error.map fun text => Failure.within "decode failed" Code.invalidData text
  return .ofReport (print format value (entrySheet listing.records)) failure

/-- The report of a simulation. -/
def simulationJson (settings : Settings) (s : Simulation) (sent : List Entry)
    (outputError : Option String) : Json :=
  .ofFields
    [("schema_id", schema "simulate-report"),
      ("config", settings.toJson),
      ("calls", .array (s.actions.map Action.toJson)),
      ("outgoing", .array (sent.map Entry.toJson)),
      ("decoded", .natural s.decoded),
      ("dropped", .natural s.dropped),
      ("error", .optional (fun e => .text (SessionError.message e)) s.error),
      ("output_error", .optional .text outputError)]

/-- What is wrong with a simulation: first what stopped the stream, then what was sent. -/
def simulationFailure (s : Simulation) (outputError : Option String) : Option Failure :=
  match s.error with
  | some e => some (.ofSession "stream rejected" e)
  | none => outputError.map (.within "device output undecodable" Code.invalidData)

/-- Commands run against a virtual board. -/
def runSimulate (files : Files) (format : Format) (input : Source) (config : Option String)
    (recovery : Option Recovery) (high : List UInt8) : Except Failure Outcome := do
  let loaded ← readSettings files config
  let settings := { loaded with recovery := recovery.getD loaded.recovery }
  let stream ← readStream files input
  let s ← simulate settings stream (input.pieceLength stream.length) high
  let (sent, outputError) := listOutgoing s.outgoing
  return .ofReport
    (print format (simulationJson settings s sent outputError) (simulationSheet s.actions sent))
    (simulationFailure s outputError)

/-- The version in one line. -/
def versionLine : String := "pinwire 0.2.1"

def runVersion (extended : Bool) : Outcome :=
  if extended then
    .success (Sheet.unlines
      ["name: pinwire",
        "version: 0.2.1",
        "message_types: " ++ toString Wire.kindCount,
        "protocol_magic: 0x" ++ Text.upperHex 8 Wire.magic.toNat,
        "features: device=true, cli=true"])
  else .success (versionLine ++ "\n")

def runTask (files : Files) (format : Format) : Task → Outcome
  | .table => runTable format
  | .version extended => runVersion extended
  | .decode input direction recovery =>
    match runDecode files format input direction recovery with
    | .ok outcome => outcome
    | .error f => .failed "" f
  | .simulate input config recovery high =>
    match runSimulate files format input config recovery high with
    | .ok outcome => outcome
    | .error f => .failed "" f

/-- What a request comes to.  None if the arguments are refused. -/
def run? (files : Files) : Request → Option Outcome
  | .refused => none
  | .showVersion => some (.success (versionLine ++ "\n"))
  | .run format task => some (runTask files format task)

end PinBridge.Tool
