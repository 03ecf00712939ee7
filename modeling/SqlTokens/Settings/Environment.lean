import SqlTokens.Input.Utf8
import SqlTokens.Settings.Basic
import SqlTokens.Text.Blank

/-!
# Settings from the environment

Four environment variables override settings. A variable whose value is not UTF-8 counts as not set.
The variables are looked at one after the other, and the first whose value cannot be read ends the
matter; what came out is checked as a whole at the end.
-/

namespace SqlTokens

/-- The environment of a program: the values of its variables, byte for byte. -/
abbrev Environment := List (String × List UInt8)

namespace Environment

/-- The text that a variable is set to. -/
def value? (environment : Environment) (name : String) : Option String := do
  let bytes ← environment.lookup name
  (Utf8.text? bytes).map String.ofList

end Environment

namespace Settings

/-- The truth value that a word stands for. Blanks around it and the case of ASCII letters do not
matter. -/
def readFlag? (word : String) : Option Bool :=
  let lower := String.ofList ((Text.trim word.toList).map Char.toLower)
  if ["1", "true", "yes", "on"].contains lower then some true
  else if ["0", "false", "no", "off"].contains lower then some false
  else none

/-- Read the variable for a choice with `read`. A variable that is not set leaves the choice alone.
-/
def readVariable {α : Type} (environment : Environment) (name : String)
    (read : String → Except Problem α) (chosen : α) : Except Problem α :=
  match environment.value? (variablePrefix ++ name) with
  | none => .ok chosen
  | some value => read value

/-- The result of reading a variable, or the complaint that its value has no meaning. -/
def orBadVariable {α : Type} (name value : String) (result? : Option α) : Except Problem α :=
  match result? with
  | some result => .ok result
  | none => .error (.badVariable name value)

/-- Override settings by the environment. -/
def override (environment : Environment) (settings : Settings) : Except Problem Settings := do
  let batchSize ← readVariable environment "BATCH_SIZE"
    (fun value => orBadVariable "BATCH_SIZE" value (Text.word? value.toList)) settings.batchSize
  let skipSundry ← readVariable environment "SKIP_SUNDRY"
    (fun value => orBadVariable "SKIP_SUNDRY" value (readFlag? value)) settings.skipSundry
  let output ← readVariable environment "OUTPUT" readOutput settings.output
  let level ← readVariable environment "LOG_LEVEL" .ok settings.level
  check ⟨batchSize, skipSundry, output, level⟩

end Settings

end SqlTokens
