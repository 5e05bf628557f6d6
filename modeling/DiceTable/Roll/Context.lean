import DiceTable.Json.Decode

/-!
# What a roll was for, and where it came from

The context names the character and the occasion, the source the program that rolled.  Everything
in them is optional.
-/

namespace DiceTable

/-- Who rolled, and what for. -/
structure RollContext where
  rollType : Option String := none
  character : Option String := none
  weapon : Option String := none
  spell : Option String := none
  skill : Option String := none
  deriving DecidableEq, Repr

namespace RollContext

/-- Reads a context. -/
def decode : Json.Decoder RollContext := fun t => do
  match ← t.fields? ["rollType", "character", "weapon", "spell", "skill"] with
  | [rollType, character, weapon, spell, skill] =>
    return {
      rollType := ← Json.Decode.optional Json.Decode.string rollType
      character := ← Json.Decode.optional Json.Decode.string character
      weapon := ← Json.Decode.optional Json.Decode.string weapon
      spell := ← Json.Decode.optional Json.Decode.string spell
      skill := ← Json.Decode.optional Json.Decode.string skill }
  | _ => none

/-- The JSON form of a context, without the fields that are absent. -/
def encode (c : RollContext) : Json.Value :=
  .ofFields [
    c.rollType.map fun s => ("rollType", .string s),
    c.character.map fun s => ("character", .string s),
    c.weapon.map fun s => ("weapon", .string s),
    c.spell.map fun s => ("spell", .string s),
    c.skill.map fun s => ("skill", .string s)]

end RollContext

/-- The kinds of programs that roll. Any name may stand for a kind; two of them have a meaning. -/
inductive SourceKind where
  | app
  | proxy
  | other (name : String)
  deriving DecidableEq, Repr

namespace SourceKind

/-- The kind of a name. -/
def ofName (s : String) : SourceKind :=
  if s = "app" then .app else if s = "proxy" then .proxy else .other s

/-- The name of a kind. -/
def name : SourceKind → String
  | .app => "app"
  | .proxy => "proxy"
  | .other s => s

/-- The kind of a source that states none. -/
def unknown : SourceKind := .other "unknown"

end SourceKind

/-- The program that produced a roll. -/
structure RollSource where
  kind : SourceKind := .unknown
  label : Option String := none
  version : Option String := none
  deriving DecidableEq, Repr

namespace RollSource

/-- Reads a source. -/
def decode : Json.Decoder RollSource := fun t => do
  match ← t.fields? ["type", "appName", "version"] with
  | [kind, label, version] =>
    return {
      kind := ← Json.Decode.withDefault .unknown
        (fun t => (Json.Decode.string t).map SourceKind.ofName) kind
      label := ← Json.Decode.optional Json.Decode.string label
      version := ← Json.Decode.optional Json.Decode.string version }
  | _ => none

/-- The JSON form of a source, without the fields that are absent. -/
def encode (s : RollSource) : Json.Value :=
  .ofFields [
    some ("type", .string s.kind.name),
    s.label.map fun l => ("appName", .string l),
    s.version.map fun v => ("version", .string v)]

end RollSource

end DiceTable
