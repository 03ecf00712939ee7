import SqlTokens.CommandLine.Invocation
import SqlTokens.Run.Failure
import SqlTokens.Run.Surroundings
import SqlTokens.Settings.Document

/-!
# Effective settings

Settings come in layers. At the bottom lie the settings from a file: the one that is named on the
command line, else the one with the usual name in the working folder, else what holds if nothing is
chosen. The environment overrides them, and a level on the command line overrides the environment.
Every layer must be in order when it is laid, whether or not a later layer covers what is wrong with
it.
-/

namespace SqlTokens

/-- The settings that an opened file says. -/
def Settings.ofFeed (feed : Feed) : Except Error Settings := do
  let bytes ← feed.readAll.mapError .io
  ofFile bytes

/-- The settings that the file at a path says. -/
def Surroundings.settingsAt (surroundings : Surroundings) (path : List Char) :
    Except Error Settings := do
  let feed ← (surroundings.openFile path).mapError .io
  Settings.ofFeed feed

/-- The lowest layer of settings. A file that is not named need not be there; but if it is, it must
be in order. -/
def Surroundings.baseSettings (surroundings : Surroundings) (file? : Option (List Char)) :
    Except Failure Settings :=
  match file? with
  | some path => (surroundings.settingsAt path).mapError (.settingsFile path)
  | none =>
    if surroundings.isThere Settings.fileName then
      (surroundings.settingsAt Settings.fileName).mapError .plain
    else .ok .default

/-- Settings with the level replaced, if there is one to replace it. -/
def Settings.withLevel (settings : Settings) : Option (List Char) → Settings
  | some level => { settings with level := String.ofList level }
  | none => settings

/-- The settings that are in effect for an invocation. -/
def Surroundings.settings (surroundings : Surroundings) (invocation : Invocation) :
    Except Failure Settings := do
  let base ← surroundings.baseSettings invocation.settingsFile?
  let overridden ← (base.override surroundings.environment).mapError (.plain ∘ .ofProblem)
  (overridden.withLevel invocation.level?).check.mapError (.plain ∘ .ofProblem)

end SqlTokens
