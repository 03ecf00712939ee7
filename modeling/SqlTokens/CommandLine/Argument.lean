/-!
# Arguments by their looks

An argument with two dashes in front names an option in full, and can carry its value behind an
equals sign. An argument with one dash in front is a cluster of options of one letter each. Two
dashes alone say that no options follow. Everything else is a plain word, a single dash too.
-/

namespace SqlTokens.CommandLine

/-- An argument, by its looks. -/
inductive Argument where
  | dashes
  | long (name : List Char) (value? : Option (List Char))
  | cluster (letters : List Char)
  | plain (word : List Char)
  deriving DecidableEq, Repr

/-- Cut the name of an option from the value that is attached to it. -/
def attachment (text : List Char) : List Char × Option (List Char) :=
  (text.takeWhile (· ≠ '='), (text.dropWhile (· ≠ '=')).tail?)

/-- The looks of an argument. -/
def Argument.ofText : List Char → Argument
  | ['-', '-'] => .dashes
  | '-' :: '-' :: text => .long (attachment text).1 (attachment text).2
  | ['-'] => .plain ['-']
  | '-' :: letters => .cluster letters
  | word => .plain word

/-- The value that the rest of a cluster is for an option in the cluster. An equals sign in front
does not belong to it. -/
def clusterValue? : List Char → Option (List Char)
  | [] => none
  | '=' :: value => some value
  | value => some value

end SqlTokens.CommandLine
