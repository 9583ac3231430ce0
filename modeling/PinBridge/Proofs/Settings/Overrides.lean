/-
PinBridge/Proofs/Settings/Overrides.lean

What settings in JSON say, and what they leave as it is.

Settings may name any of their fields.  The ones that they name have the values
given, and all others the standard ones.  What holds for the settings as a whole
holds inside `board` and `identity`, so that naming one limit of the board does
not change the others.

Settings that are printed name all fields, and are read as they were.

Main statement: `settings_of_text`.
-/
import PinBridge.Tool.Run
import PinBridge.Proofs.Json.Members
import PinBridge.Proofs.Json.Rendering

namespace PinBridge

open Json

theorem Recovery.ofJson?_name (r : Recovery) : Recovery.ofJson? (.text r.name) = some r := by
  cases r <;> rfl

/-! ### Reading some of the fields -/

namespace BoardLimits

/-- The fields in JSON. -/
def fields (l : BoardLimits) : List (String × Json) :=
  [("num_pins", .natural l.pins.toNat), ("num_pwms", .natural l.pwms.toNat),
    ("num_uarts", .natural l.uarts.toNat)]

/-- The limits with the picked fields alone, and the standard ones besides. -/
def only (pick : String → Bool) (l : BoardLimits) : BoardLimits where
  pins := if pick "num_pins" then l.pins else standard.pins
  pwms := if pick "num_pwms" then l.pwms else standard.pwms
  uarts := if pick "num_uarts" then l.uarts else standard.uarts

theorem ofJson?_of_gives {l : BoardLimits} {pick : String → Bool} {v : Json}
    (h : v.Gives l.fields pick) : ofJson? v = some (l.only pick) := by
  have hnames : ["num_pins", "num_pwms", "num_uarts"] = l.fields.map Prod.fst := rfl
  have hnodup : (l.fields.map Prod.fst).Nodup := by
    rw [← hnames]
    decide
  rw [ofJson?, hnames, h.fields?_eq hnodup]
  simp only [fields, List.map_cons, List.map_nil, Option.bind_eq_bind, Option.bind_some,
    withDefault_picked (uint8?_natural _), Option.pure_def]
  rfl

end BoardLimits

namespace Versions

/-- The fields in JSON. -/
def fields (i : Versions) : List (String × Json) :=
  [("hardware", .natural i.hardware.toNat), ("bootloader", .natural i.bootloader.toNat),
    ("firmware", .natural i.firmware.toNat)]

/-- The versions with the picked fields alone, and the standard ones besides. -/
def only (pick : String → Bool) (i : Versions) : Versions where
  hardware := if pick "hardware" then i.hardware else standard.hardware
  bootloader := if pick "bootloader" then i.bootloader else standard.bootloader
  firmware := if pick "firmware" then i.firmware else standard.firmware

theorem ofJson?_of_gives {i : Versions} {pick : String → Bool} {v : Json}
    (h : v.Gives i.fields pick) : ofJson? v = some (i.only pick) := by
  have hnames : ["hardware", "bootloader", "firmware"] = i.fields.map Prod.fst := rfl
  have hnodup : (i.fields.map Prod.fst).Nodup := by
    rw [← hnames]
    decide
  rw [ofJson?, hnames, h.fields?_eq hnodup]
  simp only [fields, List.map_cons, List.map_nil, Option.bind_eq_bind, Option.bind_some,
    withDefault_picked (uint16?_natural _), withDefault_picked (uint64?_natural _),
    Option.pure_def]
  rfl

end Versions

namespace Settings

/-- The fields in JSON, with something that stands for the limits of the board and something that
stands for the versions. -/
def fields (c : Settings) (board versions : Json) : List (String × Json) :=
  [("queue_capacity", .natural c.queueCapacity.toNat), ("failure_policy", .text c.recovery.name),
    ("board", board), ("identity", versions)]

/-- The settings with the picked fields alone, at the top and inside `board` and `identity`, and
the standard ones besides. -/
def only (pick pickLimit pickVersion : String → Bool) (c : Settings) : Settings where
  queueCapacity := if pick "queue_capacity" then c.queueCapacity else standard.queueCapacity
  recovery := if pick "failure_policy" then c.recovery else standard.recovery
  board := if pick "board" then c.board.only pickLimit else standard.board
  versions := if pick "identity" then c.versions.only pickVersion else standard.versions

theorem ofJson?_of_gives {c : Settings} {pick pickLimit pickVersion : String → Bool}
    {board versions v : Json} (hboard : board.Gives c.board.fields pickLimit)
    (hversions : versions.Gives c.versions.fields pickVersion)
    (h : v.Gives (c.fields board versions) pick) :
    ofJson? v = some (c.only pick pickLimit pickVersion) := by
  have hnames : ["queue_capacity", "failure_policy", "board", "identity"]
      = (c.fields board versions).map Prod.fst := rfl
  have hnodup : ((c.fields board versions).map Prod.fst).Nodup := by
    rw [← hnames]
    decide
  rw [ofJson?, hnames, h.fields?_eq hnodup]
  simp only [fields, List.map_cons, List.map_nil, Option.bind_eq_bind, Option.bind_some,
    withDefault_picked (uint64?_natural _), withDefault_picked (Recovery.ofJson?_name _),
    withDefault_picked (BoardLimits.ofJson?_of_gives hboard),
    withDefault_picked (Versions.ofJson?_of_gives hversions), Option.pure_def]
  rfl

end Settings

/-! ### Printing all fields -/

/-- A record that is printed gives all of its fields. -/
theorem Json.gives_ofFields (fields : List (String × Json)) :
    (ofFields fields).Gives fields fun _ => true := by
  refine .intro (List.forall_mem_nil _) (List.Perm.of_eq ?_)
  rw [List.append_nil, List.filter_eq_self.2 fun _ _ => rfl]

theorem Settings.ofJson?_toJson (c : Settings) : ofJson? c.toJson = some c :=
  ofJson?_of_gives (gives_ofFields c.board.fields) (gives_ofFields c.versions.fields)
    (gives_ofFields (c.fields c.board.toJson c.versions.toJson))

/-! ### What is printed is plain -/

theorem Json.plain_optional {α : Type} {f : α → Json} (hf : ∀ a, (f a).Plain) (o : Option α) :
    (optional f o).Plain := by
  cases o with
  | none => exact .null
  | some a => exact hf a

theorem Settings.plain_toJson (c : Settings) : c.toJson.Plain := by
  simp [toJson, BoardLimits.toJson, Versions.toJson]

theorem LineSettings.plain_toJson (s : LineSettings) : s.toJson.Plain := by
  simp [toJson]

theorem Action.plain_toJson (a : Action) : a.toJson.Plain := by
  have hargs : ∀ field ∈ a.nameAndArgs.2, field.2.Plain := by
    cases a <;> simp [nameAndArgs, plain_optional, LineSettings.plain_toJson]
  exact .ofFields (List.forall_mem_cons.2 ⟨.text _, hargs⟩)

namespace Tool

theorem Entry.plain_toJson (entry : Entry) : entry.toJson.Plain := by
  simp [toJson]

/-- The report of a simulation is plain, and so can be read. -/
theorem plain_simulationJson (settings : Settings) (sim : Simulation) (sent : List Entry)
    (outputError : Option String) : (simulationJson settings sim sent outputError).Plain := by
  have hactions : (Json.array (sim.actions.map Action.toJson)).Plain :=
    .array (List.forall_mem_map.2 fun a _ => a.plain_toJson)
  have hsent : (Json.array (sent.map Entry.toJson)).Plain :=
    .array (List.forall_mem_map.2 fun entry _ => entry.plain_toJson)
  have herror : (Json.optional (fun e => .text (SessionError.message e)) sim.error).Plain :=
    plain_optional (fun e => .text e.message) sim.error
  have houtput : (Json.optional .text outputError).Plain := plain_optional .text outputError
  simp [simulationJson, schema, settings.plain_toJson, hactions, hsent, herror, houtput]

end Tool

/-! ### Settings in a text -/

/-- **Settings in JSON set exactly the fields that they name.**

Whichever fields are named, at the top and inside `board` and `identity`, in whatever order and with
whatever members besides: the settings have the values given, and all others are the standard ones.
However the text is laid out that spells them, it is read so.  Settings that are written are read as
they were, alone or out of the report of a simulation. -/
theorem settings_of_text (c : Settings) :
    (∀ (pick pickLimit pickVersion : String → Bool) (board versions v : Json) (text : String),
      board.Gives c.board.fields pickLimit → versions.Gives c.versions.fields pickVersion →
      v.Gives (c.fields board versions) pick → Json.Spells text v →
      Settings.ofText? text = some (c.only pick pickLimit pickVersion)) ∧
    Settings.ofText? c.toJson.render = some c ∧
    ∀ (sim : Tool.Simulation) (sent : List Tool.Entry) (outputError : Option String)
      (sheet : Tool.Sheet), ∃ report config : Json,
      Json.ofText? (Tool.print .json (Tool.simulationJson c sim sent outputError) sheet)
        = some report ∧
      report.field? "config" = some config ∧ Settings.ofJson? config = some c := by
  refine ⟨?_, ?_, ?_⟩
  · intro pick pickLimit pickVersion board versions v text hboard hversions hv htext
    rw [Settings.ofText?, htext.ofText?, Option.bind_some,
      Settings.ofJson?_of_gives hboard hversions hv]
  · rw [Settings.ofText?, c.plain_toJson.ofText?_render, Option.bind_some, c.ofJson?_toJson]
  · intro sim sent outputError sheet
    have hplain := Tool.plain_simulationJson c sim sent outputError
    exact ⟨_, c.toJson, hplain.spells_line.ofText?, rfl, c.ofJson?_toJson⟩

/-- The theorem for settings of which one field is named at the top and one of the board, in another
order and behind something that nobody asked for. -/
theorem settings_of_text_of_some :
    let c : Settings := ⟨0xFFFFFFFFFFFFFFFF, .resync, ⟨1, 2, 3⟩, ⟨4, 5, 0xFFFFFFFFFFFFFFFF⟩⟩
    let pick := fun name => name == "failure_policy" || name == "board"
    let board := Json.ofFields [("num_uarts", .natural 3)]
    let versions := Json.ofFields []
    let led := Json.array [.null, .ofFields [("pin", .natural 300)]]
    let v := Json.ofFields [("led", led), ("board", board), ("failure_policy", .text "resync")]
    board.Gives c.board.fields (fun name => name == "num_uarts") ∧
      versions.Gives c.versions.fields (fun _ => false) ∧
      v.Gives (c.fields board versions) pick ∧ Json.Spells (v.render ++ "\n") v ∧
      Settings.ofText? (v.render ++ "\n")
        = some { Settings.standard with recovery := .resync, board := ⟨48, 9, 3⟩ } := by
  intro c pick board versions led v
  have hboard : board.Gives c.board.fields (fun name => name == "num_uarts") :=
    .intro (List.forall_mem_nil _) (List.Perm.refl _)
  have hversions : versions.Gives c.versions.fields (fun _ => false) :=
    .intro (List.forall_mem_nil _) (List.Perm.refl _)
  have hv : v.Gives (c.fields board versions) pick := by
    have hunknown : ∀ member ∈ [("led", led)],
        member.1 ∉ (c.fields board versions).map Prod.fst := by
      simp [Settings.fields]
    have hpicked : (c.fields board versions).filter (fun field => pick field.1)
        = [("failure_policy", .text "resync"), ("board", board)] := rfl
    refine .intro hunknown ?_
    rw [hpicked]
    exact List.reverse_perm [("failure_policy", .text "resync"), ("board", board), ("led", led)]
  have hled : led.Plain := by simp [led]
  have hplain : v.Plain := by simp [v, board, hled]
  have hspells : Json.Spells (v.render ++ "\n") v := hplain.spells_line
  exact ⟨hboard, hversions, hv, hspells,
    (settings_of_text c).1 pick _ _ board versions v _ hboard hversions hv hspells⟩

/-- An object inside another one gives no more than it names, and a text may be spelled in any
way. -/
example :
    let text := "\x7b\t\"led\": [1.5e3, \"\\ud800\"], \"board\":\x7b\"num_uarts\":2\x7d," ++
      "\"failure_policy\" : \"\\u0072esync\" \x7d"
    Settings.ofText? text
      = some { Settings.standard with recovery := .resync, board := ⟨48, 9, 2⟩ } := by
  decide +kernel

end PinBridge
