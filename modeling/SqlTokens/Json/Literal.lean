import SqlTokens.Text.Number

/-!
# String literals of JSON

A string literal stands for a text, character by character: as itself, as a short escape, or as the
number of a UTF-16 unit. A character beyond the sixteen-bit range takes two such numbers, a pair of
surrogates. A literal may also name one half of a pair alone. That is well formed, but no text
corresponds to it.

When a text is written, only the quote, the backslash and the controls below the space are escaped.
-/

namespace SqlTokens.Json

/-- How a text is written inside a string literal, one character at a time. -/
def escape (c : Char) : List Char :=
  if c = '"' then ['\\', '"']
  else if c = '\\' then ['\\', '\\']
  else if c = '\x08' then ['\\', 'b']
  else if c = '\x0c' then ['\\', 'f']
  else if c = '\n' then ['\\', 'n']
  else if c = '\r' then ['\\', 'r']
  else if c = '\t' then ['\\', 't']
  else if c < ' ' then '\\' :: 'u' :: Text.hexadecimal 4 c.toNat
  else [c]

/-- A string literal for a text. -/
def literal (text : List Char) : List Char :=
  '"' :: (text.flatMap escape ++ ['"'])

/-- What a piece of a string literal names: a character, or half of a pair of surrogates. -/
inductive Piece where
  | char (c : Char)
  | half (unit : Nat)
  deriving DecidableEq, Repr

/-- What a UTF-16 unit names. -/
def Piece.ofUnit (unit : Nat) : Piece :=
  if 0xd800 ≤ unit && unit ≤ 0xdfff then half unit else char (.ofNat unit)

/-- The character that a backslash and this character name together. -/
def shortEscape? : Char → Option Char
  | '"' => some '"'
  | '\\' => some '\\'
  | '/' => some '/'
  | 'b' => some '\x08'
  | 'f' => some '\x0c'
  | 'n' => some '\n'
  | 'r' => some '\r'
  | 't' => some '\t'
  | _ => none

/-- Read the pieces of a literal behind its opening quote, up to the closing one, and give them back
with what follows. -/
def readPieces? : List Char → Option (List Piece × List Char)
  | [] => none
  | '"' :: rest => some ([], rest)
  | '\\' :: 'u' :: a :: b :: c :: d :: rest => do
    let unit ← Text.ofDigits? 16 [a, b, c, d]
    let (pieces, rest) ← readPieces? rest
    pure (.ofUnit unit :: pieces, rest)
  | '\\' :: e :: rest => do
    let c ← shortEscape? e
    let (pieces, rest) ← readPieces? rest
    pure (.char c :: pieces, rest)
  | c :: rest =>
    if c = '\\' || c < ' ' then none
    else do
      let (pieces, rest) ← readPieces? rest
      pure (.char c :: pieces, rest)

/-- The text that the pieces of a literal name. Two halves in a row, a high one and a low one, name
one character; a half that is left over names none. -/
def textOfPieces? : List Piece → Option (List Char)
  | [] => some []
  | .char c :: rest => (textOfPieces? rest).map (c :: ·)
  | .half high :: .half low :: rest =>
    if high < 0xdc00 && 0xdc00 ≤ low then
      let c := Char.ofNat ((high - 0xd800) * 0x400 + (low - 0xdc00) + 0x10000)
      (textOfPieces? rest).map (c :: ·)
    else none
  | .half _ :: _ => none

theorem length_of_readPieces? {chars rest : List Char} {pieces : List Piece}
    (h : readPieces? chars = some (pieces, rest)) : rest.length < chars.length := by
  induction chars using readPieces?.induct generalizing pieces rest with
  | case1 => simp [readPieces?] at h
  | case2 tail =>
    simp only [readPieces?, Option.some.injEq, Prod.mk.injEq] at h
    simp [← h.2]
  | case3 a b c d tail ih =>
    rw [readPieces?] at h
    simp only [Option.bind_eq_bind, Option.bind_eq_some_iff, Option.pure_def, Option.some.injEq,
      Prod.mk.injEq] at h
    obtain ⟨unit, -, ⟨pieces', rest'⟩, hread, -, rfl⟩ := h
    have := ih hread
    simp only [List.length_cons]
    omega
  | case4 e tail hnot ih =>
    rw [readPieces?.eq_4 _ _ hnot] at h
    simp only [Option.bind_eq_bind, Option.bind_eq_some_iff, Option.pure_def, Option.some.injEq,
      Prod.mk.injEq] at h
    obtain ⟨c, -, ⟨pieces', rest'⟩, hread, -, rfl⟩ := h
    have := ih hread
    simp only [List.length_cons]
    omega
  | case5 c tail h₁ h₂ h₃ hbad =>
    rw [readPieces?.eq_5 _ _ h₁ h₂ h₃, if_pos hbad] at h
    cases h
  | case6 c tail h₁ h₂ h₃ hgood ih =>
    rw [readPieces?.eq_5 _ _ h₁ h₂ h₃, if_neg hgood] at h
    simp only [Option.bind_eq_bind, Option.bind_eq_some_iff, Option.pure_def, Option.some.injEq,
      Prod.mk.injEq] at h
    obtain ⟨⟨pieces', rest'⟩, hread, -, rfl⟩ := h
    have := ih hread
    simp only [List.length_cons]
    omega

end SqlTokens.Json
