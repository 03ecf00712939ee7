import SqlTokens.Input.Utf8
import SqlTokens.Tokenizer

/-!
# Lexers

A lexer is a way of cutting texts and streams into tokens, set up once and used for many inputs. Its
settings have been checked. An input can be asked for its tokens one by one, or read as a whole; the
latter leaves a summary in the log if the input could be read to its end.
-/

namespace SqlTokens

/-- Settings that were found to be in order. -/
structure Lexer where
  settings : Settings
  inOrder : settings.problem? = none

namespace Lexer

/-- A lexer with given settings, if they are in order. -/
def ofSettings (settings : Settings) : Except Error Lexer :=
  match h : settings.problem? with
  | some problem => .error (.ofProblem problem)
  | none => .ok ⟨settings, h⟩

/-- The lexer for a user who chose nothing but whether sundry tokens are skipped. -/
def basic (skipSundry : Bool) : Lexer :=
  ⟨{ Settings.default with skipSundry }, by cases skipSundry <;> rfl⟩

/-- A tokenizer at the start of a source. -/
def tokenizer (lexer : Lexer) (source : Source) : Tokenizer :=
  .start source lexer.settings.batchSize.toNat lexer.settings.skipSundry

/-- A tokenizer at the start of a text. -/
def ofText (lexer : Lexer) (text : List Char) : Tokenizer :=
  lexer.tokenizer (.ofText text)

/-- A tokenizer at the start of a stream. -/
def ofFeed (lexer : Lexer) (feed : Feed) : Tokenizer :=
  lexer.tokenizer (.ofInput feed.events)

/-- Read a whole text. -/
def readText (lexer : Lexer) (text : List Char) : Transcript :=
  (lexer.ofText text).run.summarized (.textRead text.length)

/-- Read a whole stream. -/
def readFeed (lexer : Lexer) (feed : Feed) : Transcript :=
  (lexer.ofFeed feed).run.summarized .streamRead

end Lexer

/-- The tokens of a text, which must be there. -/
def tokenize (text? : Option (List Char)) (skipSundry : Bool) : Except Error (List Token) :=
  match text? with
  | none => .error (.invalidArgument "text is absent")
  | some text => ((Lexer.basic skipSundry).readText text).result

/-- The tokens of a stream, which must be there. -/
def tokenizeFeed (feed? : Option Feed) (skipSundry : Bool) : Except Error (List Token) :=
  match feed? with
  | none => .error (.invalidArgument "reader is absent")
  | some feed => ((Lexer.basic skipSundry).readFeed feed).result

end SqlTokens
