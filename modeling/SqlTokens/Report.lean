import SqlTokens.Json.Printer
import SqlTokens.Log.Record
import SqlTokens.Token.Json

/-!
# Reports on tokens

What is printed about a list of tokens: the tokens themselves, one to a line or as a JSON array, or
how many there are of each kind.
-/

namespace SqlTokens.Report

/-- The line of a token: its kind, a tab and its quoted text. -/
def line (token : Token) : List Char :=
  token.labelled ['\t'] ++ ['\n']

/-- The lines of a list of tokens. -/
def lines (tokens : List Token) : List Char :=
  tokens.flatMap line

/-- A list of tokens as a JSON array, spread over lines. -/
def json (tokens : List Token) : List Char :=
  (Token.toJsonArray tokens).pretty ++ ['\n']

/-- A list of tokens in a given format. -/
def tokens (format : OutputFormat) (tokens : List Token) : List Char :=
  match format with
  | .text => lines tokens
  | .json => json tokens

/-- The texts that are printed one after the other for a list of tokens in a given format. -/
def tokenTexts (format : OutputFormat) (tokens : List Token) : List (List Char) :=
  match format with
  | .text => tokens.map line
  | .json => [(Token.toJsonArray tokens).pretty, ['\n']]

/-- How often each kind was met so far, in the order in which the kinds were first met. -/
abbrev Tally := List (Kind × Nat)

/-- Count one more token of a kind. -/
def Tally.add (kind : Kind) : Tally → Tally
  | [] => [(kind, 1)]
  | (met, count) :: tally =>
    if met = kind then (met, count + 1) :: tally else (met, count) :: Tally.add kind tally

/-- The tally of a list of tokens. -/
def tally (tokens : List Token) : Tally :=
  tokens.foldl (fun tally token => tally.add token.kind) []

/-- The number of characters that tokens consist of. -/
def countChars (tokens : List Token) : Nat :=
  tokens.foldl (fun count token => count + token.text.length) 0

/-- The line of a count. -/
def countLine (name : String) (count : Nat) : List Char :=
  name.toList ++ '\t' :: Text.decimal count ++ ['\n']

/-- How many tokens there are of each kind, how many in all, and how many characters. -/
def counts (tokens : List Token) : List Char :=
  (tally tokens).flatMap (fun (kind, count) => countLine kind.name count) ++
    countLine "tokens" tokens.length ++ countLine "chars" (countChars tokens)

/-- The texts that are printed one after the other for the counts. -/
def countTexts (tokens : List Token) : List (List Char) :=
  (tally tokens).map (fun (kind, count) => countLine kind.name count) ++
    [countLine "tokens" tokens.length, countLine "chars" (countChars tokens)]

end SqlTokens.Report
