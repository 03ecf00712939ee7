/-!
# Invocations

What a user can ask the program to do: one of six commands, and two choices that hold for all of
them.
-/

namespace SqlTokens

/-- Something that the program can do. -/
inductive Command where
  /-- Print the tokens of a file, or of the standard input if no file is named. -/
  | tokenize (file? : Option (List Char)) (skipSundry : Bool) (format? : Option (List Char))
  /-- Print how many tokens there are of each kind. -/
  | stats (file? : Option (List Char)) (skipSundry : Bool)
  /-- Print a name in delimiters. -/
  | encode (name : List Char) (quotes : Bool)
  /-- Print a name without its delimiters. -/
  | decode (name : List Char)
  /-- Print the settings that are in effect. -/
  | showSettings
  /-- Write the settings of a user who chose nothing to a file. -/
  | writeSettings (file : List Char)
  deriving DecidableEq, Repr

/-- A command together with the file that settings are read from and the level for the log, if they
are named. -/
structure Invocation where
  settingsFile? : Option (List Char)
  level? : Option (List Char)
  command : Command
  deriving DecidableEq, Repr

end SqlTokens
