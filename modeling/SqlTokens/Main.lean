import SqlTokens.CommandLine.Manual
import SqlTokens.Disk
import SqlTokens.Run.Outcome

/-!
# The program

The program, run by a user on a machine. What a run can see is looked up before the run. The steps
of its script are then taken one after the other.
-/

namespace SqlTokens

/-- The fault that the machine reports. -/
def Fault.ofMachine : IO.Error → Fault
  | .noFileOrDirectory .. => .notFound
  | .inappropriateType _ 20 _ => .notADirectory
  | .inappropriateType _ 21 _ => .isADirectory
  | error => ⟨.other, toString error⟩

/-- The feed of everything that can be read from a handle. -/
def Feed.ofHandle (read : IO ByteArray) : IO Feed := do
  try
    return .ofBytes (← read).toList
  catch error =>
    return .ofChunks [.failure (.ofMachine error)]

/-- Open a file of the machine. -/
def openMachineFile (path : List Char) : IO (Except Fault Feed) := do
  try
    let handle ← IO.FS.Handle.mk (String.ofList path) .read
    return .ok (← Feed.ofHandle handle.readBinToEnd)
  catch error =>
    return .error (.ofMachine error)

/-- Whether something is at a path on the machine. -/
def isOnMachine (path : List Char) : IO Bool := do
  try
    discard <| IO.FS.realPath (String.ofList path)
    return true
  catch _ =>
    return false

/-- Write a file of the machine. -/
def writeMachineFile (path : List Char) (bytes : List UInt8) : IO (Except Fault Unit) := do
  try
    IO.FS.writeBinFile (String.ofList path) ⟨bytes.toArray⟩
    return .ok ()
  catch error =>
    return .error (.ofMachine error)

/-- The variables of the environment that matter. -/
def machineEnvironment : IO Environment := do
  let names :=
    ["BATCH_SIZE", "SKIP_SUNDRY", "OUTPUT", "LOG_LEVEL"].map (Settings.variablePrefix ++ ·)
  (Log.Filter.variableName :: names).filterMapM fun name => do
    return (← IO.getEnv name).map fun value => (name, Utf8.encode value.toList)

/-- Everything on the standard input. -/
partial def readInput (stream : IO.FS.Stream) (bytes : ByteArray) : IO ByteArray := do
  let more ← stream.read 65536
  if more.isEmpty then return bytes else readInput stream (bytes ++ more)

/-- The file that a command reads tokens from, if it is named. -/
def Command.inputFile? : Command → Option (List Char)
  | tokenize file? .. | stats file? _ => file?
  | encode .. | decode _ | showSettings | writeSettings _ => none

/-- Whether a command reads the standard input. -/
def Command.readsInput : Command → Bool
  | tokenize none .. | stats none _ => true
  | tokenize (some _) .. | stats (some _) _ | encode .. | decode _ | showSettings
  | writeSettings _ => false

/-- The paths of the files that an invocation can open to read. -/
def Invocation.inputFiles (invocation : Invocation) : List (List Char) :=
  invocation.settingsFile?.getD Settings.fileName :: invocation.command.inputFile?.toList

/-- What a run of an invocation can see on the machine. -/
def machineSurroundings (invocation : Invocation) : IO Surroundings := do
  let environment ← machineEnvironment
  let files ← invocation.inputFiles.mapM fun path => do
    return (path, ← isOnMachine path, ← openMachineFile path)
  let input ←
    if invocation.command.readsInput then Feed.ofHandle (do readInput (← IO.getStdin) .empty)
    else pure (.ofBytes [])
  return {
    environment
    isThere := fun path => ((files.lookup path).map Prod.fst).getD false
    openFile := fun path => ((files.lookup path).map Prod.snd).getD (.error .notFound)
    input }

/-- Show a log record to the user. -/
def showRecord (record : Log.Record) : IO Unit :=
  IO.eprintln ("[" ++ record.level.name ++ " " ++ record.target ++ "] " ++
    String.ofList record.message)

/-- Take the steps of a script on the machine. Of the log, the records that pass a filter are shown,
once there is one. -/
def Script.perform {α : Type} (surroundings : Surroundings) (filter? : Option Log.Filter) :
    Script α → IO (Except Failure α)
  | done value => return .ok value
  | fail failure => return .error failure
  | looking next => (next surroundings).perform surroundings filter?
  | listening filter next => next.perform surroundings (some filter)
  | noting records next => do
    if let some filter := filter? then
      (records.filter filter.passes).forM showRecord
    next.perform surroundings filter?
  | printing text next => do
    IO.print (String.ofList text)
    next.perform surroundings filter?
  | writing path bytes next => do
    match ← writeMachineFile path bytes with
    | .ok () => next.perform surroundings filter?
    | .error fault => return .error (.plain (.io fault))

/-- Tell the user why a run failed. -/
def reportFailure (failure : Failure) : IO Unit := do
  match failure.chain with
  | [] => pure ()
  | message :: causes =>
    IO.eprintln ("Error: " ++ message)
    unless causes.isEmpty do
      IO.eprintln "\nCaused by:"
      for cause in causes do
        IO.eprintln ("    " ++ cause)

/-- Run an invocation on the machine. -/
def runOnMachine (invocation : Invocation) : IO Ending := do
  let result ← invocation.script.perform (← machineSurroundings invocation) none
  if let .error failure := result then reportFailure failure
  return .ofResult result

/-- Answer a command line with a notice. A user who asks for nothing gets help all the same. -/
def answerOnMachine (notice : CommandLine.Notice) : IO Ending := do
  match notice with
  | .help menu => IO.print menu.page
  | .version => IO.println Program.title
  | .nothingAsked menu => IO.eprint menu.page
  | _ => IO.eprintln "For more information, try '--help'."
  return .noticed notice

end SqlTokens

open SqlTokens in
/-- Run the program. -/
def main (arguments : List String) : IO UInt32 := do
  let ending ← match Invocation.ofArguments (arguments.map String.toList) with
    | .error notice => answerOnMachine notice
    | .ok invocation => runOnMachine invocation
  return ending.status.toUInt32
