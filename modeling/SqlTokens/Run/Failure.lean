import SqlTokens.Error

/-!
# Failures of a run

A run fails with an error, and a failure says what was being done. It is reported as a chain of
messages: what was being done, then what went wrong, and for a fault of an input or a file the
wording of the fault once more.
-/

namespace SqlTokens

/-- The messages about an error, from the outside inwards. -/
def Error.chain (error : Error) : List String :=
  match error with
  | .io fault => [error.message, fault.message]
  | _ => [error.message]

/-- Why a run failed. -/
inductive Failure where
  /-- The settings could not be read from the file that was named for them. -/
  | settingsFile (path : List Char) (error : Error)
  /-- The file that tokens should come from could not be opened. -/
  | inputFile (path : List Char) (fault : Fault)
  /-- Anything else. -/
  | plain (error : Error)
  deriving DecidableEq, Repr

/-- The messages about a failure, from the outside inwards. -/
def Failure.chain : Failure → List String
  | settingsFile path error => ("failed to load config " ++ String.ofList path) :: error.chain
  | inputFile path fault => ["failed to open " ++ String.ofList path, fault.message]
  | plain error => error.chain

end SqlTokens
