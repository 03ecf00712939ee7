import SqlTokens.Log.Level

/-!
# Settings

What a user can choose: how many characters are read at a time, whether blanks and comments are left
out, how tokens are printed, and how much is logged. Settings can hold any values; `Settings.check`
says which of them can be worked with.
-/

namespace SqlTokens

/-- The form in which tokens are printed. -/
inductive OutputFormat where
  | text
  | json
  deriving DecidableEq, Repr

namespace OutputFormat

/-- The name of a format. -/
def name : OutputFormat → String
  | text => "text"
  | json => "json"

/-- The format with exactly this name. -/
def ofName? (name : String) : Option OutputFormat :=
  [text, json].find? (·.name = name)

@[simp] theorem ofName?_name (format : OutputFormat) : ofName? format.name = some format := by
  cases format <;> decide

end OutputFormat

/-- The choices of a user. The level is kept as it was written. -/
structure Settings where
  batchSize : UInt64
  skipSundry : Bool
  output : OutputFormat
  level : String
  deriving DecidableEq, Repr

namespace Settings

/-- The number of characters that are read at a time if nothing else is chosen. -/
def defaultBatchSize : UInt64 := 64

/-- The largest number of characters that can be read at a time. -/
def maxBatchSize : UInt64 := 65536

/-- The settings of a user who chose nothing. -/
def default : Settings :=
  ⟨defaultBatchSize, false, .text, "warn"⟩

/-- The name of the file that settings are read from and written to if no other file is named. -/
def fileName : List Char := "sqllexer.toml".toList

/-- The beginning of the names of the environment variables that hold settings. -/
def variablePrefix : String := "SQLLEXER_"

/-- What can be wrong with settings or with the places they are read from. -/
inductive Problem where
  | batchTooSmall
  | batchTooLarge
  | unknownLevel (level : String)
  | unknownOutput (name : String)
  | badVariable (name value : String)
  | unreadableFile
  deriving DecidableEq, Repr

/-- The wording of a problem. -/
def Problem.message : Problem → String
  | batchTooSmall => "batch_size must be at least 1"
  | batchTooLarge => "batch_size must not exceed " ++ toString maxBatchSize.toNat
  | unknownLevel level => "unknown log level '" ++ level ++ "'"
  | unknownOutput name => "unknown output format '" ++ name ++ "'"
  | badVariable name value => "invalid " ++ variablePrefix ++ name ++ " '" ++ value ++ "'"
  | unreadableFile => "TOML parse error"

/-- The first thing that is wrong with settings, if anything is. -/
def problem? (settings : Settings) : Option Problem :=
  if settings.batchSize = 0 then some .batchTooSmall
  else if maxBatchSize < settings.batchSize then some .batchTooLarge
  else if (Log.Threshold.ofName? settings.level).isNone then some (.unknownLevel settings.level)
  else none

/-- The settings, if nothing is wrong with them. -/
def check (settings : Settings) : Except Problem Settings :=
  match settings.problem? with
  | some problem => .error problem
  | none => .ok settings

/-- The format that a user calls by a given name. The case of ASCII letters does not matter, and an
unknown name is reported in small letters. -/
def readOutput (name : String) : Except Problem OutputFormat :=
  let lower := String.ofList (name.toList.map Char.toLower)
  match OutputFormat.ofName? lower with
  | some output => .ok output
  | none => .error (.unknownOutput lower)

end Settings

end SqlTokens
