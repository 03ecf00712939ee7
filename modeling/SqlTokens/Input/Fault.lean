/-!
# Faults of an input

What can go wrong while an input is read. A fault is a value like any other: it is handed on with
the kind and the wording that it arrived with.
-/

namespace SqlTokens

/-- The kinds of fault that an input or a file can show. -/
inductive FaultKind where
  | brokenPipe
  | interrupted
  | timedOut
  | unexpectedEof
  | wouldBlock
  | invalidData
  | notFound
  | notADirectory
  | isADirectory
  | other
  deriving DecidableEq, Repr

namespace FaultKind

/-- The name under which a kind of fault is known. -/
def name : FaultKind → String
  | brokenPipe => "BrokenPipe"
  | interrupted => "Interrupted"
  | timedOut => "TimedOut"
  | unexpectedEof => "UnexpectedEof"
  | wouldBlock => "WouldBlock"
  | invalidData => "InvalidData"
  | notFound => "NotFound"
  | notADirectory => "NotADirectory"
  | isADirectory => "IsADirectory"
  | other => "Other"

end FaultKind

/-- A fault: its kind and its wording. -/
structure Fault where
  kind : FaultKind
  message : String
  deriving DecidableEq, Repr

end SqlTokens
