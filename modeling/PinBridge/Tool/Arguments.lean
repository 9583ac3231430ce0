/-
PinBridge/Tool/Arguments.lean

The arguments of the command line.

There is one level of options before the name of the task and one behind it;
the options for output and logging may stand on either.  An option's value
follows it, or is joined to it by an equals sign.  What follows two dashes alone
is taken as it stands.  An option may be given once, `--high` any number of
times.  Values are checked as they are met.
-/
import PinBridge.Receiver.Basic

namespace PinBridge.Tool

/-! ### What can be asked for -/

/-- How results are printed. -/
inductive Format where
  | json
  | table
  | pretty
  | raw
  deriving DecidableEq, Repr

/-- Where a stream comes from and in what pieces it is fed. -/
structure Source where
  hex : Option String
  file : Option String
  chunk : Option Nat
  deriving DecidableEq, Repr

namespace Source

/-- The size of the pieces: the whole stream unless one is given, and never nothing. -/
def pieceLength (i : Source) (length : Nat) : Nat := max 1 (i.chunk.getD length)

end Source

/-- What the command line can do. -/
inductive Task where
  /-- Print the kinds of message. -/
  | table
  /-- Cut a stream into messages. -/
  | decode (input : Source) (direction : Direction) (recovery : Recovery)
  /-- Run commands against a virtual board; `high` are the inputs that read high. -/
  | simulate (input : Source) (config : Option String) (recovery : Option Recovery)
      (high : List UInt8)
  | version (extended : Bool)
  deriving DecidableEq, Repr

namespace Task

/-- The files that a task may read. -/
def paths : Task → List String
  | .decode input _ _ => input.file.toList
  | .simulate input config _ _ => config.toList ++ input.file.toList
  | .table | .version _ => []

end Task

/-- What a list of arguments asks for. -/
inductive Request where
  | run (format : Format) (task : Task)
  | showVersion
  /-- The arguments make no sense. -/
  | refused
  deriving DecidableEq, Repr

/-! ### Values -/

def formatNamed? : String → Option Format
  | "json" => some .json
  | "table" => some .table
  | "pretty" => some .pretty
  | "raw" => some .raw
  | _ => none

def directionNamed? : String → Option Direction
  | "in" => some .incoming
  | "out" => some .outgoing
  | _ => none

def recoveryNamed? : String → Option Recovery
  | "abort" => some .abort
  | "resync" => some .resync
  | _ => none

def isLogFormat (s : String) : Bool := ["text", "json"].contains s

def isLogLevel (s : String) : Bool :=
  ["off", "error", "warn", "info", "debug", "trace"].contains s

/-- A number in decimal digits. -/
def digits? (cs : List Char) : Option Nat :=
  if cs.isEmpty || !cs.all Char.isDigit then none
  else some (cs.foldl (fun n c => n * 10 + (c.toNat - '0'.toNat)) 0)

/-- A number that may have a plus sign, from 1 to what 64 bits hold. -/
def chunkValue? (s : String) : Option Nat := do
  let n ← match s.toList with
    | '+' :: cs => digits? cs
    | cs => digits? cs
  if 1 ≤ n && n < UInt64.size then some n else none

/-- A pin number; it may have a sign, but only zero may be negative. -/
def pinValue? (s : String) : Option UInt8 := do
  let n ← match s.toList with
    | '+' :: cs => digits? cs
    | '-' :: cs => (digits? cs).filter (· == 0)
    | cs => digits? cs
  if n < 256 then some (.ofNat n) else none

/-- Pin numbers with commas between them. -/
def pinList? (s : String) : Option (List UInt8) := (s.splitOn ",").mapM pinValue?

/-! ### Options -/

/-- An option that a level knows. -/
structure OptionRule where
  name : String
  takesValue : Bool
  repeatable : Bool
  accepts : String → Bool

/-- An option that is there or not. -/
def OptionRule.flag (name : String) : OptionRule := ⟨name, false, false, fun _ => true⟩

/-- An option with a value. -/
def OptionRule.value (name : String) (accepts : String → Bool) : OptionRule :=
  ⟨name, true, false, accepts⟩

/-- What a level of arguments may hold. -/
structure Level where
  rules : List OptionRule
  /-- How many arguments may stand without an option; none where the task is named. -/
  operands : Option Nat

/-- The arguments of a level. -/
structure Gathered where
  options : List (String × String)
  operands : List String
  deriving DecidableEq, Repr

namespace Gathered

def none : Gathered := ⟨[], []⟩

/-- The value of an option. -/
def get? (g : Gathered) (name : String) : Option String := g.options.lookup name

/-- Whether an option is given. -/
def has (g : Gathered) (name : String) : Bool := (g.get? name).isSome

/-- Every value of an option, in order. -/
def getAll (g : Gathered) (name : String) : List String :=
  g.options.filterMap fun (key, value) => if key = name then some value else Option.none

/-- Add an option, if its value is accepted and it may be given again. -/
def add (g : Gathered) (rule : OptionRule) (value : String) : Option Gathered :=
  if rule.accepts value && (rule.repeatable || !g.has rule.name) then
    some { g with options := g.options ++ [(rule.name, value)] }
  else Option.none

end Gathered

/-- What one argument looks like. -/
inductive Shape where
  /-- Two dashes alone. -/
  | escape
  /-- Two dashes and a name, with a value joined to it or not. -/
  | long (name : String) (value : Option String)
  /-- One dash and letters. -/
  | short (letters : List Char)
  | operand
  deriving DecidableEq, Repr

def shapeOf (arg : String) : Shape :=
  match arg.toList with
  | ['-', '-'] => .escape
  | '-' :: '-' :: cs =>
    let name := cs.takeWhile (· != '=')
    match cs.drop name.length with
    | [] => .long (String.ofList name) none
    | _ :: value => .long (String.ofList name) (some (String.ofList value))
  | '-' :: c :: cs => .short (c :: cs)
  | _ => .operand

/-- How reading a level ends. -/
inductive Scan where
  | refused
  /-- The version is asked for; what follows does not matter. -/
  | version
  /-- All read, up to the name of a task and what follows it. -/
  | done (g : Gathered) (rest : List String)
  deriving DecidableEq, Repr

/-- Read the arguments of a level; `waiting` is an option whose value is due. -/
def scan (level : Level) (waiting : Option OptionRule) (g : Gathered) : List String → Scan
  | [] => if waiting.isSome then .refused else .done g []
  | arg :: rest =>
    match waiting, shapeOf arg with
    | some rule, .operand =>
      match g.add rule arg with
      | some g => scan level none g rest
      | none => .refused
    | some _, _ => .refused
    | none, .escape =>
      if level.operands.isSome then .done { g with operands := g.operands ++ rest } []
      else .refused
    | none, .short letters =>
      if level.operands.isNone && letters.head? == some 'V' then .version else .refused
    | none, .operand =>
      if level.operands.isSome then scan level none { g with operands := g.operands ++ [arg] } rest
      else .done g (arg :: rest)
    | none, .long name value =>
      if level.operands.isNone && name == "version" && value.isNone then .version
      else
        match level.rules.find? (·.name == name) with
        | none => .refused
        | some rule =>
          match rule.takesValue, value with
          | true, none => scan level (some rule) g rest
          | true, some value =>
            match g.add rule value with
            | some g => scan level none g rest
            | none => .refused
          | false, none =>
            match g.add rule "" with
            | some g => scan level none g rest
            | none => .refused
          | false, some _ => .refused

/-! ### The levels -/

/-- The options for output and logging. -/
def commonRules : List OptionRule :=
  [.value "format" fun s => (formatNamed? s).isSome,
    .value "log-format" isLogFormat,
    .value "log-level" isLogLevel]

/-- The options that say where a stream comes from. -/
def inputRules : List OptionRule :=
  [.value "file" fun s => !s.isEmpty,
    .value "chunk" fun s => (chunkValue? s).isSome]

/-- What stands before the name of the task. -/
def outerLevel : Level := ⟨commonRules, none⟩

/-- What stands behind the name of a task. -/
def innerLevel? : String → Option Level
  | "table" => some ⟨commonRules, some 0⟩
  | "decode" =>
    some ⟨commonRules ++ inputRules ++
      [.value "direction" fun s => (directionNamed? s).isSome, .flag "resync"], some 1⟩
  | "simulate" =>
    some ⟨commonRules ++ inputRules ++
      [.value "config" fun s => !s.isEmpty,
        .value "policy" fun s => (recoveryNamed? s).isSome,
        ⟨"high", true, true, fun s => (pinList? s).isSome⟩], some 1⟩
  | "version" => some ⟨commonRules ++ [.flag "extended"], some 0⟩
  | _ => none

/-- A stream comes from an argument or from a file, not from both. -/
def inputOf? (g : Gathered) : Option Source :=
  if g.has "file" && !g.operands.isEmpty then none
  else some ⟨g.operands.head?, g.get? "file", (g.get? "chunk").bind chunkValue?⟩

/-- The task that a name and the arguments behind it stand for. -/
def taskOf? (name : String) (g : Gathered) : Option Task :=
  match name with
  | "table" => some .table
  | "decode" => do
    let input ← inputOf? g
    let direction := ((g.get? "direction").bind directionNamed?).getD .incoming
    return .decode input direction (if g.has "resync" then .resync else .abort)
  | "simulate" => do
    let input ← inputOf? g
    let high := (g.getAll "high").flatMap fun s => (pinList? s).getD []
    return .simulate input (g.get? "config") ((g.get? "policy").bind recoveryNamed?) high
  | "version" => some (.version (g.has "extended"))
  | _ => none

/-- What the arguments leave open. -/
structure Surroundings where
  /-- The log level that the environment names. -/
  logLevel : Option String
  /-- Whether results are printed to a terminal. -/
  terminal : Bool
  deriving DecidableEq, Repr

namespace Surroundings

/-- How results are printed unless the arguments say so: as a table for a person to read, as JSON
for a program. -/
def format (s : Surroundings) : Format := if s.terminal then .table else .json

/-- Whether the log level of a level of arguments is a proper one: the option's, which has been
checked, or else the environment's. -/
def acceptsLogLevel (s : Surroundings) (g : Gathered) : Bool :=
  g.has "log-level" || (s.logLevel.map isLogLevel).getD true

/-- What the arguments ask for.  Of two formats the inner one counts. -/
def request (s : Surroundings) (args : List String) : Request :=
  match scan outerLevel none .none args with
  | .version => .showVersion
  | .done outer (name :: rest) =>
    match innerLevel? name with
    | none => .refused
    | some level =>
      match scan level none .none rest with
      | .done inner _ =>
        let fits := inner.operands.length ≤ level.operands.getD 0
        let logged := s.acceptsLogLevel outer && s.acceptsLogLevel inner
        match taskOf? name inner with
        | some task =>
          if fits && logged then
            let format := ((inner.get? "format").or (outer.get? "format")).bind formatNamed?
            .run (format.getD s.format) task
          else .refused
        | none => .refused
      | _ => .refused
  | _ => .refused

end Surroundings

end PinBridge.Tool
