import SqlTokens.Toml.Quote

/-!
# Lexemes of TOML

The words and marks of a document. Blanks and line breaks count, for lines matter; comments do not,
once they have been found to hold plain characters only. A word is whatever stands between marks and
blanks. What it means, a key or a value, depends on where it stands.
-/

namespace SqlTokens.Toml

/-- A piece of a document. -/
inductive Lexeme where
  | blank (chars : List Char)
  | newLine
  | mark (c : Char)
  | string (text : List Char) (tripled : Bool)
  | word (chars : List Char)
  deriving DecidableEq, Repr

/-- The characters that stand for themselves. -/
def marks : List Char :=
  ['.', '=', ',', '[', ']', '\x7b', '\x7d']

/-- Whether a character goes on with a word. A quoting sign inside a word does. -/
def isWordChar (c : Char) : Bool :=
  !(marks.contains c || isBlank c || c = '\n' || c = '\r' || c = '#')

/-- Whether a character goes on with a comment. -/
def isCommentChar (c : Char) : Bool :=
  c ≠ '\n' && c ≠ '\r'

/-- The lexeme that a text starts with, and the text behind it. A comment is nothing. -/
def readLexeme? : List Char → Option (Option Lexeme × List Char)
  | [] => none
  | c :: rest =>
    if isBlank c then some (some (.blank (c :: rest.takeWhile isBlank)), rest.dropWhile isBlank)
    else if c = '\n' || c = '\r' then
      (afterBreak? (c :: rest)).map fun rest => (some .newLine, rest)
    else if c = '#' then
      if (rest.takeWhile isCommentChar).all isPlain then some (none, rest.dropWhile isCommentChar)
      else none
    else if c = '"' || c = '\'' then
      (readString? c rest).map fun (text, tripled, rest) => (some (.string text tripled), rest)
    else if marks.contains c then some (some (.mark c), rest)
    else some (some (.word (c :: rest.takeWhile isWordChar)), rest.dropWhile isWordChar)

theorem length_of_readLexeme? {chars rest : List Char} {lexeme? : Option Lexeme}
    (h : readLexeme? chars = some (lexeme?, rest)) : rest.length < chars.length := by
  have hdrop (p : Char → Bool) (tail : List Char) : (tail.dropWhile p).length ≤ tail.length :=
    (List.dropWhile_suffix p).length_le
  unfold readLexeme? at h
  split at h
  · cases h
  · rename_i c tail
    split at h
    · cases h
      exact Nat.lt_succ_of_le (hdrop _ _)
    · split at h
      · obtain ⟨rest', hread, heq⟩ := Option.map_eq_some_iff.1 h
        cases heq
        exact length_of_afterBreak? hread
      · split at h
        · split at h
          · cases h
            exact Nat.lt_succ_of_le (hdrop _ _)
          · cases h
        · split at h
          · obtain ⟨⟨text, tripled, rest'⟩, hread, heq⟩ := Option.map_eq_some_iff.1 h
            cases heq
            exact Nat.lt_succ_of_lt (length_of_readString? hread)
          · split at h
            · cases h
              exact Nat.lt_succ_self _
            · cases h
              exact Nat.lt_succ_of_le (hdrop _ _)

/-- The lexemes of a document. -/
def lexemes? (chars : List Char) : Option (List Lexeme) :=
  if chars.isEmpty then some []
  else
    match _h : readLexeme? chars with
    | none => none
    | some (lexeme?, rest) => (lexemes? rest).map (lexeme?.toList ++ ·)
termination_by chars.length
decreasing_by exact length_of_readLexeme? _h

end SqlTokens.Toml
