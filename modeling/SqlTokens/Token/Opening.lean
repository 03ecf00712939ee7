import SqlTokens.Token
import SqlTokens.Text.Blank

/-!
# How a token opens

The kind of the next token is settled by its first two characters. The rules overlap, so their
order matters: a minus, a slash and an `N` are looked at before the general classes, because what
follows them may make a comment or a national string of them.
-/

namespace SqlTokens

/-- The pairs of characters that form one operator. -/
def compoundOperators : List (Char × Char) :=
  [('+', '='), ('-', '='), ('*', '='), ('/', '='), ('%', '='), ('&', '='), ('|', '='), ('^', '='),
    ('>', '='), ('<', '='), ('<', '>'), ('!', '<'), ('!', '='), ('!', '>'), (':', ':')]

/-- Whether two characters in a row form one operator. -/
def isCompoundOperator (first second : Char) : Bool :=
  compoundOperators.contains (first, second)

/-- The characters that are an operator or a separator on their own. -/
def symbolChars : List Char :=
  ['+', '*', '%', '&', '|', '^', '~', '>', '<', '=', ',', '.', ';', '(', ')']

/-- Whether a character is a symbol on its own, whatever follows. The minus and the slash are not
listed: they are symbols only if they open no comment. -/
def isSymbolChar (c : Char) : Bool :=
  symbolChars.contains c

/-- The characters, blanks apart, that a literal stops before. An opening bracket is not one of
them, so that a bracket inside a word belongs to the word. -/
def literalEnds : List Char :=
  ['+', '-', '*', '/', '%', '&', '|', '^', '~', '>', '<', '!', '=', '\'', '"', ',', '.', ';', ':',
    '(', ')']

/-- Whether a literal stops before a character. -/
def isLiteralEnd (c : Char) : Bool :=
  Text.isBlank c || literalEnds.contains c

/-- The kind of a token that starts with the character `first`, which `second` follows if the input
goes on. The first rule that fits decides. -/
def Kind.ofOpening (first : Char) (second : Option Char) : Kind :=
  if first = '-' then
    if second = some '-' then .lineComment else .symbol
  else if first = '/' then
    if second = some '*' then .blockComment else .symbol
  else if first = 'N' then
    if second = some '\'' then .quotedString else .literal
  else if first = '"' || first = '\'' then .quotedString
  else if first = '[' then .squareString
  else if isSymbolChar first then .symbol
  else if second.any (isCompoundOperator first) then .symbol
  else if Text.isBlank first then .whitespace
  else .literal

/-- The kind of the token that the characters looked at open. Only the first two of them count; no
character at all counts as a literal, though no caller looks at the end of the input. -/
def Kind.ofLookahead : List Char → Kind
  | [] => .literal
  | first :: rest => Kind.ofOpening first rest.head?

/-- Blanks open with a blank. -/
theorem Kind.isBlank_of_ofLookahead {first : Char} {rest : List Char}
    (h : ofLookahead (first :: rest) = .whitespace) : Text.isBlank first = true := by
  simp only [ofLookahead, ofOpening] at h
  repeat' split at h
  all_goals first | contradiction | assumption

end SqlTokens
