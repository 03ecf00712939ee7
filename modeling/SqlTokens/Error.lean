import SqlTokens.Input.Fault
import SqlTokens.Settings.Basic

/-!
# Errors

Everything that an operation on SQL text can fail with, by cause. `Error.message` holds the wording
of each.
-/

namespace SqlTokens

/-- Why an operation failed. -/
inductive Error where
  /-- An argument that is needed is not there. -/
  | invalidArgument (message : String)
  /-- The settings, or the place they come from, are not in order. -/
  | configuration (message : String)
  /-- An input or a file could not be read or written. -/
  | io (fault : Fault)
  /-- A text does not have the form that it is read in. -/
  | serialization
  /-- Something happened that cannot happen. -/
  | internal (message : String)
  deriving DecidableEq, Repr

namespace Error

/-- The wording of an error. -/
def message : Error → String
  | invalidArgument message => "Invalid argument: " ++ message
  | configuration message => "Configuration error: " ++ message
  | io fault => "I/O error: " ++ fault.message
  | serialization => "Serialization error"
  | internal message => "Internal error: " ++ message

/-- The error for a problem with settings. -/
def ofProblem (problem : Settings.Problem) : Error :=
  configuration problem.message

end Error

end SqlTokens
