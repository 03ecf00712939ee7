import SqlTokens.Json.Basic

/-!
# Lexemes of JSON

The words and marks that a JSON text is made of, without the blanks between them. Strings, numbers
and the three words are values already; the marks put values together.
-/

namespace SqlTokens.Json

/-- A mark, or a value that no other value is part of. -/
inductive Lexeme where
  | openArray
  | closeArray
  | openObject
  | closeObject
  | comma
  | colon
  | scalar (value : Json)

/-- Whether a character may stand between lexemes. -/
def isSpace (c : Char) : Bool :=
  c = ' ' || c = '\t' || c = '\n' || c = '\r'

/-- Split off a run of digits, which must not be empty. -/
def readDigits? (chars : List Char) : Option (List Char × List Char) :=
  let digits := chars.takeWhile Char.isDigit
  if digits.isEmpty then none else some (digits, chars.dropWhile Char.isDigit)

/-- Split off the whole part of a number: a zero, or digits that do not start with one. -/
def readWhole? : List Char → Option (List Char × List Char)
  | '0' :: rest => some (['0'], rest)
  | chars => readDigits? chars

/-- Split off the fraction of a number, if there is one. -/
def readFraction? : List Char → Option (List Char × List Char)
  | '.' :: rest => (readDigits? rest).map fun (digits, rest) => ('.' :: digits, rest)
  | chars => some ([], chars)

/-- Split off the exponent of a number, if there is one. -/
def readExponent? : List Char → Option (List Char × List Char)
  | e :: rest =>
    if e = 'e' || e = 'E' then
      match rest with
      | sign :: digits =>
        if sign = '+' || sign = '-' then
          (readDigits? digits).map fun (digits, rest) => (e :: sign :: digits, rest)
        else (readDigits? rest).map fun (digits, rest) => (e :: digits, rest)
      | [] => none
    else some ([], e :: rest)
  | [] => some ([], [])

/-- Split off the sign of a number, if there is one. -/
def readSign : List Char → List Char × List Char
  | '-' :: rest => (['-'], rest)
  | chars => ([], chars)

/-- The number whose parts are given. It is a count if it consists of digits alone. -/
def ofParts (sign whole fraction exponent : List Char) : Json :=
  if sign.isEmpty && fraction.isEmpty && exponent.isEmpty then .nat (Nat.ofDigitChars 10 whole 0)
  else .number (sign ++ whole ++ fraction ++ exponent)

/-- Split off a number. -/
def readNumber? (chars : List Char) : Option (Json × List Char) := do
  let (sign, chars) := readSign chars
  let (whole, chars) ← readWhole? chars
  let (fraction, chars) ← readFraction? chars
  let (exponent, chars) ← readExponent? chars
  pure (ofParts sign whole fraction exponent, chars)

/-- Split off the lexeme that a text starts with. -/
def readLexeme? : List Char → Option (Lexeme × List Char)
  | '[' :: rest => some (.openArray, rest)
  | ']' :: rest => some (.closeArray, rest)
  | '\x7b' :: rest => some (.openObject, rest)
  | '\x7d' :: rest => some (.closeObject, rest)
  | ',' :: rest => some (.comma, rest)
  | ':' :: rest => some (.colon, rest)
  | 'n' :: 'u' :: 'l' :: 'l' :: rest => some (.scalar .null, rest)
  | 't' :: 'r' :: 'u' :: 'e' :: rest => some (.scalar (.bool true), rest)
  | 'f' :: 'a' :: 'l' :: 's' :: 'e' :: rest => some (.scalar (.bool false), rest)
  | '"' :: rest =>
    (readPieces? rest).map fun (pieces, rest) => (.scalar (.string (textOfPieces? pieces)), rest)
  | chars => (readNumber? chars).map fun (value, rest) => (.scalar value, rest)

theorem length_of_readDigits? {chars digits rest : List Char}
    (h : readDigits? chars = some (digits, rest)) : rest.length < chars.length := by
  simp only [readDigits?] at h
  split at h
  · cases h
  · rename_i hne
    simp only [Option.some.injEq, Prod.mk.injEq] at h
    obtain ⟨-, rfl⟩ := h
    have hsplit : chars.takeWhile Char.isDigit ++ chars.dropWhile Char.isDigit = chars :=
      List.takeWhile_append_dropWhile
    have hlen := congrArg List.length hsplit
    have : 0 < (chars.takeWhile Char.isDigit).length :=
      List.length_pos_iff.2 (by simpa using hne)
    rw [List.length_append] at hlen
    omega

theorem length_of_readWhole? {chars whole rest : List Char}
    (h : readWhole? chars = some (whole, rest)) : rest.length < chars.length := by
  unfold readWhole? at h
  split at h
  · cases h
    simp
  · exact length_of_readDigits? h

theorem length_of_readFraction? {chars fraction rest : List Char}
    (h : readFraction? chars = some (fraction, rest)) : rest.length ≤ chars.length := by
  unfold readFraction? at h
  split at h
  · obtain ⟨⟨digits, rest'⟩, hread, heq⟩ := Option.map_eq_some_iff.1 h
    cases heq
    have := length_of_readDigits? hread
    simp only [List.length_cons]
    omega
  · cases h
    exact Nat.le_refl _

theorem length_of_readExponent? {chars exponent rest : List Char}
    (h : readExponent? chars = some (exponent, rest)) : rest.length ≤ chars.length := by
  unfold readExponent? at h
  split at h
  · split at h
    · split at h
      · split at h
        all_goals
          obtain ⟨⟨digits, rest'⟩, hread, heq⟩ := Option.map_eq_some_iff.1 h
          cases heq
          have := length_of_readDigits? hread
          simp only [List.length_cons] at this ⊢
          omega
      · cases h
    · cases h
      exact Nat.le_refl _
  · cases h
    exact Nat.le_refl _

theorem length_readSign (chars : List Char) : (readSign chars).2.length ≤ chars.length := by
  unfold readSign
  split
  · simp
  · exact Nat.le_refl _

theorem length_of_readNumber? {chars rest : List Char} {value : Json}
    (h : readNumber? chars = some (value, rest)) : rest.length < chars.length := by
  simp only [readNumber?, Option.bind_eq_bind, Option.bind_eq_some_iff, Option.pure_def,
    Option.some.injEq, Prod.mk.injEq, Prod.exists] at h
  obtain ⟨whole, rest₁, hwhole, fraction, rest₂, hfraction, exponent, rest₃, hexponent, -, rfl⟩ := h
  have := length_readSign chars
  have := length_of_readWhole? hwhole
  have := length_of_readFraction? hfraction
  have := length_of_readExponent? hexponent
  omega

/-- Every lexeme takes up a character. -/
theorem length_of_readLexeme? {chars rest : List Char} {lexeme : Lexeme}
    (h : readLexeme? chars = some (lexeme, rest)) : rest.length < chars.length := by
  unfold readLexeme? at h
  split at h
  case h_10 =>
    obtain ⟨⟨pieces, rest'⟩, hread, heq⟩ := Option.map_eq_some_iff.1 h
    cases heq
    have := length_of_readPieces? hread
    simp only [List.length_cons]
    omega
  case h_11 =>
    obtain ⟨⟨value, rest'⟩, hread, heq⟩ := Option.map_eq_some_iff.1 h
    cases heq
    exact length_of_readNumber? hread
  all_goals
    cases h
    simp only [List.length_cons]
    omega

/-- The lexemes of a text. -/
def lexemes? (chars : List Char) : Option (List Lexeme) :=
  match chars with
  | [] => some []
  | c :: rest =>
    if isSpace c then lexemes? rest
    else
      match _h : readLexeme? (c :: rest) with
      | none => none
      | some (lexeme, after) => (lexemes? after).map (lexeme :: ·)
termination_by chars.length
decreasing_by
  · simp
  · exact length_of_readLexeme? _h

end SqlTokens.Json
