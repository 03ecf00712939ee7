import SqlTokens.CommandLine.Menu
import SqlTokens.FileSystem
import SqlTokens.Log.Filter
import SqlTokens.Run.Failure
import SqlTokens.Run.Surroundings

/-!
# Scripts

What a run does, step by step: it looks around, starts to log, notes records in the log, prints and
writes files. Each step is taken in the state that the steps before it left behind (`Script.run`). A
step that fails ends the run, and what was done before it stays done.
-/

namespace SqlTokens

/-- The steps of a run, up to a value or a failure. -/
inductive Script (α : Type) where
  /-- There is nothing left to do. -/
  | done (value : α)
  /-- The run ends with a failure. -/
  | fail (failure : Failure)
  /-- What to do next hangs on what the run sees now. -/
  | looking (next : Surroundings → Script α)
  /-- From now on, records that pass a filter are shown. -/
  | listening (filter : Log.Filter) (next : Script α)
  | noting (records : List Log.Record) (next : Script α)
  | printing (text : List Char) (next : Script α)
  /-- Write a file. If this fails, so does the run. -/
  | writing (path : List Char) (bytes : List UInt8) (next : Script α)

namespace Script

variable {α β : Type}

/-- Go on with another script where a script is done. -/
def bind (script : Script α) (next : α → Script β) : Script β :=
  match script with
  | done value => next value
  | fail failure => fail failure
  | looking after => looking fun surroundings => (after surroundings).bind next
  | listening filter after => listening filter (after.bind next)
  | noting records after => noting records (after.bind next)
  | printing text after => printing text (after.bind next)
  | writing path bytes after => writing path bytes (after.bind next)

instance : Monad Script where
  pure := done
  bind := bind

/-- Go on with a value, unless there is a failure in its place. -/
def ofExcept : Except Failure α → Script α
  | .ok value => done value
  | .error failure => fail failure

/-- Look around for something. -/
def look (answer : Surroundings → Except Failure α) : Script α :=
  looking fun surroundings => ofExcept (answer surroundings)

/-- Show the log records that pass a filter. -/
def listen (filter : Log.Filter) : Script Unit :=
  listening filter (done ())

/-- Note records in the log. -/
def note (records : List Log.Record) : Script Unit :=
  noting records (done ())

/-- Print a text. -/
def print (text : List Char) : Script Unit :=
  printing text (done ())

/-- Print texts one after the other. -/
def printAll (texts : List (List Char)) : Script Unit :=
  texts.foldr printing (done ())

/-- Write a file. -/
def write (path : List Char) (bytes : List UInt8) : Script Unit :=
  writing path bytes (done ())

end Script

/-- What a run has done so far. What it printed is kept with the last character first. -/
structure Deeds (σ : Type) where
  printedRev : List Char
  files : σ
  filter? : Option Log.Filter
  log : List Log.Record

namespace Deeds

variable {σ : Type}

/-- Nothing is done yet. -/
def none (files : σ) : Deeds σ :=
  ⟨[], files, .none, []⟩

/-- Everything that was printed. -/
def printed (deeds : Deeds σ) : List Char :=
  deeds.printedRev.reverse

def print (deeds : Deeds σ) (text : List Char) : Deeds σ :=
  { deeds with printedRev := text.reverse ++ deeds.printedRev }

def listen (deeds : Deeds σ) (filter : Log.Filter) : Deeds σ :=
  { deeds with filter? := some filter }

/-- Note the records that are shown. As long as there is no filter, none are. -/
def note (deeds : Deeds σ) (records : List Log.Record) : Deeds σ :=
  match deeds.filter? with
  | .none => deeds
  | some filter => { deeds with log := deeds.log ++ records.filter filter.passes }

end Deeds

/-- A machine that runs can be made on: its files, the variables of the environment, the standard
input, and the pages that are printed for a user who asks for help. -/
structure Machine (σ : Type) where
  fileSystem : FileSystem σ
  environment : Environment
  input : Feed
  manual : CommandLine.Menu → List Char

/-- What a run sees on a machine with given files. -/
def Machine.surroundings {σ : Type} (machine : Machine σ) (files : σ) : Surroundings :=
  ⟨machine.environment, machine.fileSystem.isThere files, machine.fileSystem.openFile files,
    machine.input⟩

namespace Script

variable {α σ : Type}

/-- Take the steps of a script on a machine, up to its end. -/
def run (machine : Machine σ) (script : Script α) (deeds : Deeds σ) :
    Except Failure α × Deeds σ :=
  match script with
  | done value => (.ok value, deeds)
  | fail failure => (.error failure, deeds)
  | looking next => (next (machine.surroundings deeds.files)).run machine deeds
  | listening filter next => next.run machine (deeds.listen filter)
  | noting records next => next.run machine (deeds.note records)
  | printing text next => next.run machine (deeds.print text)
  | writing path bytes next =>
    match machine.fileSystem.write deeds.files path bytes with
    | .ok files => next.run machine { deeds with files }
    | .error fault => (.error (.plain (.io fault)), deeds)

end Script

end SqlTokens
