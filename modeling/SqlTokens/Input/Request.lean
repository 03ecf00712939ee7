import SqlTokens.Input.Source

/-!
# Requests to a source

What the reader of a source can do with it: give characters back, or have characters put into a
buffer. A buffer has room for a number of characters, and no more are delivered than that, however
many are wanted.
-/

namespace SqlTokens

/-- A request to a source. -/
inductive Request where
  | undo (chars : List Char)
  | fill (want room : Nat)
  | fillAll (room : Nat)
  deriving DecidableEq, Repr

namespace Source

/-- Do what is asked for. The answer is what was delivered, or the fault that was met. A buffer that
is to be filled as a whole wants as much as it has room for. -/
def serve : Request → Source → Except Fault (List Char) × Source
  | .undo chars, source => (.ok [], source.undo chars)
  | .fill want room, source => source.fill (min want room)
  | .fillAll room, source => source.fill room

/-- Do what is asked for, request by request. -/
def serveAll : List Request → Source → List (Except Fault (List Char)) × Source
  | [], source => ([], source)
  | request :: requests, source =>
    let (answer, source) := source.serve request
    let (answers, source) := source.serveAll requests
    (answer :: answers, source)

end Source

end SqlTokens
