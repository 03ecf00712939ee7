import SqlTokens.Log.Level
import SqlTokens.Program
import SqlTokens.Settings.Basic
import SqlTokens.Text.Quoted
import SqlTokens.Token

/-!
# Log records

What the library reports about its work, as events. How an event is worded, how grave it is and
which part of the program it comes from are read off it afterwards.
-/

namespace SqlTokens

/-- The quoted text of a token behind the name of its kind and a separator. -/
def Token.labelled (separator : List Char) (token : Token) : List Char :=
  token.kind.name.toList ++ separator ++ Text.quoted token.text

/-- How a token is shown: its kind, and its text in parentheses. -/
def Token.shown (token : Token) : List Char :=
  token.labelled ['('] ++ [')']

namespace Log

/-- An event that is worth a record. -/
inductive Record where
  /-- The program starts to work with settings that were found to be in order. -/
  | started (settings : Settings)
  /-- A token was handed out. -/
  | token (token : Token)
  /-- The input ended after this number of tokens was handed out. -/
  | ended (emitted : Nat)
  /-- A whole text was cut into tokens. -/
  | textRead (chars tokens : Nat)
  /-- A whole stream was cut into tokens. -/
  | streamRead (tokens : Nat)
  deriving DecidableEq, Repr

/-- Settings, written out field by field. -/
def showSettings (settings : Settings) : List Char :=
  "LexerConfig \x7b batch_size: ".toList ++ Text.decimal settings.batchSize.toNat ++
    ", skip_sundry: ".toList ++ (if settings.skipSundry then "true" else "false").toList ++
    ", output: ".toList ++
    (match settings.output with | .text => "Text".toList | .json => "Json".toList) ++
    ", logging: LoggingConfig \x7b level: ".toList ++ Text.quoted settings.level.toList ++
    " \x7d \x7d".toList

namespace Record

/-- How grave an event is. -/
def level : Record → Level
  | token _ => .trace
  | started _ | ended _ | textRead .. | streamRead _ => .debug

/-- The part of the program that an event comes from. -/
def target : Record → String
  | started _ => Program.name
  | token _ | ended _ => "sqllexer::lexer::tokenizer"
  | textRead .. | streamRead _ => "sqllexer::lexer"

/-- The wording of an event. -/
def message : Record → List Char
  | started settings =>
    Program.title.toList ++ " with ".toList ++ showSettings settings
  | token t => t.labelled [' ']
  | ended emitted =>
    "tokenizer done, ".toList ++ Text.decimal emitted ++ " tokens emitted".toList
  | textRead chars tokens =>
    "tokenized ".toList ++ Text.decimal chars ++ " chars into ".toList ++ Text.decimal tokens ++
      " tokens".toList
  | streamRead tokens =>
    "tokenized stream into ".toList ++ Text.decimal tokens ++ " tokens".toList

@[simp] theorem message_token (t : Token) : (token t).message = t.labelled [' '] := rfl

@[simp] theorem message_ended (emitted : Nat) : (ended emitted).message =
    "tokenizer done, ".toList ++ Text.decimal emitted ++ " tokens emitted".toList := rfl

end Record

end Log

end SqlTokens
