import SqlTokens.Json.Basic
import SqlTokens.Settings.Basic

/-!
# Settings as JSON

Settings are read from an object with a member for each choice. A choice that is not given keeps its
default, and members with other names are passed over. An array in place of an object gives the
choices in their order, and can stop early. Reading checks the form of each value and nothing more.
-/

namespace SqlTokens

/-- The format that a JSON value stands for: its name, or an object whose only member has that name
and no value. -/
def OutputFormat.ofJson? : Json → Option OutputFormat
  | .string (some name) => ofName? (String.ofList name)
  | .object [(some name, .null)] => ofName? (String.ofList name)
  | _ => none

namespace Settings

/-- The level of a value that holds the choices for logging. -/
def levelOfJson? (level : String) : Json → Option String
  | .array [] => some level
  | .array [value] => value.text?.map String.ofList
  | .object members =>
    members.foldlM (fun level (name, value) =>
      if name = some "level".toList then value.text?.map String.ofList else some level) level
  | _ => none

/-- The names of the choices, in their order. -/
def choiceNames : List String :=
  ["batch_size", "skip_sundry", "output", "logging"]

/-- Make the choice with a given name. -/
def chooseJson? (settings : Settings) (name : String) (value : Json) : Option Settings :=
  match name with
  | "batch_size" => value.word?.map fun batchSize => { settings with batchSize }
  | "skip_sundry" => value.bool?.map fun skipSundry => { settings with skipSundry }
  | "output" => (OutputFormat.ofJson? value).map fun output => { settings with output }
  | "logging" => (levelOfJson? default.level value).map fun level => { settings with level }
  | _ => some settings

/-- The settings that a JSON value stands for. -/
def ofJson? : Json → Option Settings
  | .array values =>
    if choiceNames.length < values.length then none
    else (choiceNames.zip values).foldlM (fun s (name, value) => s.chooseJson? name value) default
  | .object members =>
    members.foldlM (fun s (name?, value) =>
      match name? with
      | some name => s.chooseJson? (String.ofList name) value
      | none => some s) default
  | _ => none

end Settings

end SqlTokens
