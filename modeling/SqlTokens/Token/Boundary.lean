import SqlTokens.Token.Opening

/-!
# Where a token is over

Whether a token can go on is seen from its own text and from the next character. A blank or a word
goes on until a character comes that it cannot hold; a comment or a quoted text goes on until it has
been closed; a symbol goes on if it makes an operator or opens a comment together with the next
character.
-/

namespace SqlTokens

namespace Token

/-- The character that closes a token, if its kind needs one, and the text behind the opener. -/
def delimited? (token : Token) : Option (Char × List Char) :=
  match token.kind, token.text with
  | .squareString, _ :: body => some (']', body)
  | .quotedString, 'N' :: '\'' :: body => some ('\'', body)
  | .quotedString, quote :: body => some (quote, body)
  | _, _ => none

/-- The number of times that a character stands at the end of a text. -/
def countAtEnd (c : Char) (text : List Char) : Nat :=
  (text.reverse.takeWhile (· = c)).length

/-- Whether a token is a quoted text that has been closed. Closers in pairs are part of the text, so
the last run of closers must have an odd length. -/
def isClosed (token : Token) : Bool :=
  match token.delimited? with
  | some (closer, body) => countAtEnd closer body % 2 = 1
  | none => false

/-- The literals that become a part of something else together with a character behind them: the
letter of a national string, and the first characters of operators that are no symbols alone. -/
def literalJunctions : List (List Char × Char) :=
  [(['N'], '\''), ([':'], ':'), (['!'], '<'), (['!'], '='), (['!'], '>')]

/-- Whether a literal becomes something else together with the character behind it. -/
def literalJoins (text : List Char) (next : Char) : Bool :=
  literalJunctions.contains (text, next)

/-- Whether a symbol makes an operator or opens a comment together with the next character. -/
def symbolJoins (text : List Char) (next : Char) : Bool :=
  match text with
  | [first] =>
    isCompoundOperator first next || first = '-' && next = '-' || first = '/' && next = '*'
  | _ => false

/-- Whether a token is over if a given character comes next. -/
def isOverBefore (token : Token) (next : Char) : Bool :=
  match token.kind with
  | .whitespace => !Text.isBlank next
  | .lineComment => token.text.getLast? = some '\n'
  | .blockComment => 4 ≤ token.text.length && ['*', '/'].isSuffixOf token.text
  | .squareString | .quotedString =>
    token.isClosed && token.delimited?.all (·.1 ≠ next)
  | .literal => isLiteralEnd next && !literalJoins token.text next
  | .symbol => !symbolJoins token.text next

end Token

end SqlTokens
