/-!
# Blank characters

The characters with the Unicode property `White_Space`. They separate tokens, end words, and are
cut off at both ends of a flag. There are twenty-five of them, so the property is a short test and
not a table. It extends the six ASCII blanks that a reader of SQL would list.
-/

namespace SqlTokens.Text

/-- Whether a character has the Unicode property `White_Space`. -/
def isBlank (c : Char) : Bool :=
  c = ' ' || ('\t' ≤ c && c ≤ '\r') || c = '\u0085' || c = '\u00a0' || c = '\u1680' ||
    ('\u2000' ≤ c && c ≤ '\u200a') || c = '\u2028' || c = '\u2029' || c = '\u202f' ||
    c = '\u205f' || c = '\u3000'

/-- A text without the blanks at its two ends. -/
def trim (text : List Char) : List Char :=
  ((text.dropWhile isBlank).reverse.dropWhile isBlank).reverse

end SqlTokens.Text
