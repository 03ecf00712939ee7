import SqlTokens.Error
import SqlTokens.Input.Utf8
import SqlTokens.Settings.Basic
import SqlTokens.Toml.Document
import SqlTokens.Toml.Printer

/-!
# Settings as a TOML document

Settings are written as a document with an entry for each choice, the level in a table of its own.
They are read from any document that gives the choices values of the right type. A choice that is
not given keeps its default. Entries with other keys are passed over, but their numbers must be
within the reach of the machine. A table of choices can also be an array of their values, which can
stop early and go on behind the last choice; what goes on is not read at all. A moment in time in
place of the table makes no choice.
-/

namespace SqlTokens

open Toml (Value Entries)

mutual

/-- Whether the numbers in a value that is passed over are spelt well and within the reach of the
machine. -/
def Toml.isReadable : Value → Bool
  | .integer number => -(1 <<< 127 : Nat) ≤ number && number < (1 <<< 128 : Nat)
  | .float spelling => Toml.isFiniteSpelling spelling
  | .array _ items => Toml.areReadable items
  | .table _ entries => Toml.areReadableEntries entries
  | .misspelt _ => false
  | .string _ | .boolean _ | .moment _ => true

/-- Whether the numbers in all items of an array are within the reach of the machine. -/
def Toml.areReadable : List Value → Bool
  | [] => true
  | item :: items => Toml.isReadable item && Toml.areReadable items

/-- Whether the numbers in all entries of a table are within the reach of the machine. -/
def Toml.areReadableEntries : List (List Char × Value) → Bool
  | [] => true
  | (_, value) :: entries => Toml.isReadable value && Toml.areReadableEntries entries

end

/-- The text of a value that is a string. -/
def Toml.Value.text? : Value → Option (List Char)
  | .string text => some text
  | _ => none

/-- The format that a value stands for: its name, or a table whose only key has that name and whose
only value is empty. -/
def OutputFormat.ofToml? : Value → Option OutputFormat
  | .string name => ofName? (String.ofList name)
  | .table _ [(name, .table _ [])] => ofName? (String.ofList name)
  | .table _ [(name, .array _ [])] => ofName? (String.ofList name)
  | _ => none

namespace Settings

/-- The level of a value that holds the choices for logging. -/
def levelOfToml? (level : String) : Value → Option String
  | .array _ [] => some level
  | .array _ (value :: _) => value.text?.map String.ofList
  | .table _ entries =>
    entries.foldlM (fun level (key, value) =>
      if key = "level".toList then value.text?.map String.ofList
      else if Toml.isReadable value then some level
      else none) level
  | .moment _ => some level
  | _ => none

/-- Make the choice with a given name. -/
def chooseToml? (settings : Settings) (name : String) (value : Value) : Option Settings :=
  match name with
  | "batch_size" =>
    match value with
    | .integer number =>
      if 0 ≤ number && number < UInt64.size then
        some { settings with batchSize := .ofNat number.toNat }
      else none
    | _ => none
  | "skip_sundry" =>
    match value with
    | .boolean skipSundry => some { settings with skipSundry }
    | _ => none
  | "output" => (OutputFormat.ofToml? value).map fun output => { settings with output }
  | "logging" => (levelOfToml? default.level value).map fun level => { settings with level }
  | _ => if Toml.isReadable value then some settings else none

/-- The settings that the entries of a document say. -/
def ofEntries? (entries : Entries) : Option Settings :=
  entries.foldlM (fun settings (key, value) => settings.chooseToml? (String.ofList key) value)
    default

/-- The settings that a document says, if they are in order. -/
def ofDocument (text : List Char) : Except Problem Settings :=
  match (Toml.read? text).bind ofEntries? with
  | some settings => settings.check
  | none => .error .unreadableFile

/-- The settings that the bytes of a file say, if they are in order. -/
def ofFile (bytes : List UInt8) : Except Error Settings :=
  match Utf8.text? bytes with
  | none => .error (.io ⟨.invalidData, "stream did not contain valid UTF-8"⟩)
  | some text => (ofDocument text).mapError .ofProblem

/-- The document that says the settings. -/
def toDocument (settings : Settings) : List Char :=
  "batch_size = ".toList ++ Text.decimal settings.batchSize.toNat ++
    "\nskip_sundry = ".toList ++ (if settings.skipSundry then "true" else "false").toList ++
    "\noutput = \"".toList ++ settings.output.name.toList ++
    "\"\n\n[logging]\nlevel = ".toList ++ Toml.string settings.level.toList ++ "\n".toList

end Settings

end SqlTokens
