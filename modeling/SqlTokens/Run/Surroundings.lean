import SqlTokens.Input.Feed
import SqlTokens.Settings.Environment

/-!
# Surroundings of a run

What a run can see: the variables of its environment, which paths lead to something, what happens
when it opens a file, and its standard input.
-/

namespace SqlTokens

/-- What a run can see. -/
structure Surroundings where
  environment : Environment
  isThere : List Char → Bool
  openFile : List Char → Except Fault Feed
  input : Feed

end SqlTokens
