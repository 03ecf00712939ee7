import SqlTokens.CommandLine.Manual
import SqlTokens.CommandLine.Reading
import SqlTokens.Disk
import SqlTokens.Run.Commands

/-!
# Outcomes of runs

A run from its arguments to its end, on a machine with given files.
-/

namespace SqlTokens

open CommandLine (Notice)

/-- How a run ended. -/
inductive Ending where
  | succeeded
  | noticed (notice : Notice)
  | failed (failure : Failure)
  deriving DecidableEq, Repr

namespace Ending

/-- The number that a run ends with. -/
def status : Ending → Nat
  | succeeded | noticed (.help _) | noticed .version => 0
  | failed _ => 1
  | noticed _ => 2

/-- How a run ended whose script came to a result. -/
def ofResult : Except Failure Unit → Ending
  | .ok () => succeeded
  | .error failure => failed failure

end Ending

/-- What a run did: how it ended, what it printed, the files that it left behind, and the log
records that were shown. -/
structure Outcome (σ : Type) where
  ending : Ending
  printed : List Char
  files : σ
  log : List Log.Record
  deriving DecidableEq, Repr

namespace Machine

variable {σ : Type}

/-- The text that is printed for a notice. What is wrong with a command line is not told on the
standard output. -/
def answer (machine : Machine σ) : Notice → List Char
  | .help menu => machine.manual menu
  | .version => (Program.title ++ "\n").toList
  | _ => []

/-- Run the program with given arguments. -/
def run (machine : Machine σ) (files : σ) (arguments : List (List Char)) : Outcome σ :=
  match Invocation.ofArguments arguments with
  | .error notice => ⟨.noticed notice, machine.answer notice, files, []⟩
  | .ok invocation =>
    let (result, deeds) := invocation.script.run machine (.none files)
    ⟨.ofResult result, deeds.printed, deeds.files, deeds.log⟩

end Machine

/-- A machine with a disk. -/
def Disk.machine (environment : Environment) (input : Feed) : Machine Disk :=
  ⟨fileSystem, environment, input, fun menu => menu.page.toList⟩

end SqlTokens
