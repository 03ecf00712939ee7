import SqlTokens.Delimited
import SqlTokens.Lexer
import SqlTokens.Report
import SqlTokens.Run.Effective
import SqlTokens.Run.Script

/-!
# Scripts of commands

What is done for each command, in order. An input is read to its end before anything is printed
about it, and a file is written before it is told that it was.
-/

namespace SqlTokens

/-- Open the file that tokens should come from, or the standard input if no file is named. -/
def Surroundings.openInput (surroundings : Surroundings) :
    Option (List Char) → Except Failure Feed
  | none => .ok surroundings.input
  | some path => (surroundings.openFile path).mapError (.inputFile path)

/-- Read the tokens of an input. -/
def Lexer.readInput (lexer : Lexer) (file? : Option (List Char)) : Script (List Token) := do
  let feed ← Script.look fun surroundings => surroundings.openInput file?
  let transcript := lexer.readFeed feed
  Script.note transcript.log
  Script.ofExcept (transcript.result.mapError .plain)

/-- Read the tokens of an input under given settings. -/
def Settings.readInput (settings : Settings) (file? : Option (List Char)) :
    Script (List Token) := do
  let lexer ← Script.ofExcept ((Lexer.ofSettings settings).mapError .plain)
  lexer.readInput file?

/-- The format for tokens: the one that is named, or that of the settings. -/
def Settings.format (settings : Settings) : Option (List Char) → Except Failure OutputFormat
  | none => .ok settings.output
  | some name => (readOutput (String.ofList name)).mapError (.plain ∘ .ofProblem)

/-- What is done for a command under given settings. -/
def Command.script (settings : Settings) : Command → Script Unit
  | tokenize file? skipSundry format? => do
    let output ← Script.ofExcept (settings.format format?)
    let effective := { settings with skipSundry := settings.skipSundry || skipSundry, output }
    let tokens ← effective.readInput file?
    Script.printAll (Report.tokenTexts output tokens)
  | stats file? skipSundry => do
    let effective := { settings with skipSundry := settings.skipSundry || skipSundry }
    let tokens ← effective.readInput file?
    Script.printAll (Report.countTexts tokens)
  | encode name quotes =>
    Script.print (Delimited.encodeName (if quotes then .quotes else .square) name ++ ['\n'])
  | decode name => Script.print (Delimited.decodeName name ++ ['\n'])
  | showSettings => Script.print settings.toDocument
  | writeSettings path => do
    Script.write path (Utf8.encode Settings.default.toDocument)
    Script.print ("wrote ".toList ++ path ++ ['\n'])

/-- What is done for an invocation. -/
def Invocation.script (invocation : Invocation) : Script Unit := do
  let settings ← Script.look fun surroundings => surroundings.settings invocation
  let environment ← Script.look fun surroundings => .ok surroundings.environment
  Script.listen (Log.Filter.effective environment settings)
  Script.note [.started settings]
  invocation.command.script settings

end SqlTokens
