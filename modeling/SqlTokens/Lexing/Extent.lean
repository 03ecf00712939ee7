import SqlTokens.Token.Opening

/-!
# How far tokens reach

Where the tokens of a text end, said of the whole text at once: there is no source that is read bit
by bit, and no state that is carried along. A comment reaches through its end mark, a quoted text
through the first run of closing characters whose length is odd, a word up to the first character
that ends words. A token whose end does not come reaches to the end of the text.

`tokensOf` cuts a text in this way. It is the measure for every other way of cutting.
-/

namespace SqlTokens

namespace Extent

/-- A text up to its first line break, with the line break. -/
def throughLineEnd : List Char → List Char
  | [] => []
  | c :: text => if c = '\n' then [c] else c :: throughLineEnd text

/-- A text up to the first star with a slash behind it, with both of them. -/
def throughCommentEnd : List Char → List Char
  | [] => []
  | '*' :: '/' :: _ => ['*', '/']
  | c :: text => c :: throughCommentEnd text

/-- A text up to the end of the first run of closers whose length is odd. -/
def throughOddRun (closer : Char) : List Char → List Char
  | [] => []
  | c :: text =>
    if c = closer then
      let more := text.takeWhile (· = closer)
      if more.length % 2 = 0 then c :: more
      else c :: more ++ throughOddRun closer (text.dropWhile (· = closer))
    else c :: throughOddRun closer text
termination_by text => text.length
decreasing_by
  · have := (List.dropWhile_suffix (· = closer) (l := text)).length_le
    simp only [List.length_cons]
    omega
  · simp

end Extent

open Extent

/-- The text of the token of a given kind that a text starts with. -/
def Kind.extent (kind : Kind) (text : List Char) : List Char :=
  match kind, text with
  | .whitespace, _ => text.takeWhile Text.isBlank
  | .lineComment, _ => throughLineEnd text
  | .blockComment, _ => text.take 2 ++ throughCommentEnd (text.drop 2)
  | .squareString, opener :: rest => opener :: throughOddRun ']' rest
  | .quotedString, 'N' :: '\'' :: rest => 'N' :: '\'' :: throughOddRun '\'' rest
  | .quotedString, quote :: rest => quote :: throughOddRun quote rest
  | .literal, first :: rest => first :: rest.takeWhile (!isLiteralEnd ·)
  | .symbol, first :: second :: _ =>
    if isCompoundOperator first second then [first, second] else [first]
  | .symbol, [first] => [first]
  | .squareString, [] | .quotedString, [] | .literal, [] | .symbol, [] => []

/-- The token that a text starts with. -/
def Token.first (text : List Char) : Token :=
  ⟨.ofLookahead text, (Kind.ofLookahead text).extent text⟩

/-- The tokens of a text. -/
def tokensOf : List Char → List Token
  | [] => []
  | c :: text =>
    let token := Token.first (c :: text)
    token :: tokensOf (text.drop (token.text.length - 1))
termination_by text => text.length
decreasing_by
  simp only [List.length_drop, List.length_cons]
  omega

end SqlTokens
