import SqlTokens.Text.Number

/-!
# Strings of TOML

A string is written between double quotes, with escapes, or between apostrophes, without any. Either
sign can be tripled, and then the string can run over several lines: a line break right behind the
opening signs is not part of it, and up to two more signs can stand before the closing ones. In a
tripled string with escapes, a backslash at the end of a line joins the line to what follows the
next blanks and line breaks.
-/

namespace SqlTokens.Toml

/-- Whether a character separates words within a line. -/
def isBlank (c : Char) : Bool :=
  c = ' ' || c = '\t'

/-- Whether a character can stand in a string or a comment as itself. Line breaks are looked after
elsewhere. -/
def isPlain (c : Char) : Bool :=
  c = '\t' || (' ' ≤ c && c ≠ '\x7f')

/-- The character with a given number, unless no character has it. -/
def char? (n : Nat) : Option Char :=
  if n.isValidChar then some (.ofNat n) else none

/-- What stands behind the backslash of an escape, and the text behind it. -/
def readEscape? : List Char → Option (Char × List Char)
  | 'b' :: rest => some ('\x08', rest)
  | 't' :: rest => some ('\t', rest)
  | 'n' :: rest => some ('\n', rest)
  | 'f' :: rest => some ('\x0c', rest)
  | 'r' :: rest => some ('\r', rest)
  | 'e' :: rest => some ('\x1b', rest)
  | '"' :: rest => some ('"', rest)
  | '\\' :: rest => some ('\\', rest)
  | 'x' :: a :: b :: rest => do
    pure (← char? (← Text.ofDigits? 16 [a, b]), rest)
  | 'u' :: a :: b :: c :: d :: rest => do
    pure (← char? (← Text.ofDigits? 16 [a, b, c, d]), rest)
  | 'U' :: a :: b :: c :: d :: e :: f :: g :: h :: rest => do
    pure (← char? (← Text.ofDigits? 16 [a, b, c, d, e, f, g, h]), rest)
  | _ => none

/-- The text behind a line break, if there is one. -/
def afterBreak? : List Char → Option (List Char)
  | '\n' :: rest => some rest
  | '\r' :: '\n' :: rest => some rest
  | _ => none

/-- The text behind the blanks and line breaks in front of it. -/
def skipLines : List Char → List Char
  | '\r' :: '\n' :: rest => skipLines rest
  | c :: rest => if isBlank c || c = '\n' then skipLines rest else c :: rest
  | [] => []

/-- The text behind a backslash that joins lines: blanks, a line break, and whatever blanks and line
breaks follow. -/
def afterJoin? (chars : List Char) : Option (List Char) :=
  (afterBreak? (chars.dropWhile isBlank)).map skipLines

/-- The signs in front of the closing ones that still belong to a tripled string, where the closing
signs have been read already, and the text behind all of them. -/
def readLastSigns (sign : Char) : List Char → List Char × List Char
  | c :: d :: rest =>
    if c = sign then if d = sign then ([c, d], rest) else ([c], d :: rest) else ([], c :: d :: rest)
  | [c] => if c = sign then ([c], []) else ([], [c])
  | [] => ([], [])

theorem length_of_readEscape? {chars rest : List Char} {c : Char}
    (h : readEscape? chars = some (c, rest)) : rest.length < chars.length := by
  unfold readEscape? at h
  split at h
  case h_12 => cases h
  case h_9 | h_10 | h_11 =>
    simp only [Option.bind_eq_bind, Option.bind_eq_some_iff, Option.pure_def, Option.some.injEq,
      Prod.mk.injEq] at h
    obtain ⟨_, -, _, -, -, rfl⟩ := h
    simp only [List.length_cons]
    omega
  all_goals
    cases h
    simp

theorem length_skipLines (chars : List Char) : (skipLines chars).length ≤ chars.length := by
  induction chars using skipLines.induct with
  | case1 rest ih =>
    rw [skipLines]
    simp only [List.length_cons]
    omega
  | case2 c rest hnot h ih =>
    rw [skipLines.eq_2 _ _ hnot, if_pos h]
    simp only [List.length_cons]
    omega
  | case3 c rest hnot h =>
    exact Nat.le_of_eq (by rw [skipLines.eq_2 _ _ hnot, if_neg h])
  | case4 => simp [skipLines]

theorem length_of_afterBreak? {chars rest : List Char} (h : afterBreak? chars = some rest) :
    rest.length < chars.length := by
  unfold afterBreak? at h
  split at h <;> cases h <;> simp only [List.length_cons] <;> omega

theorem length_of_afterJoin? {chars rest : List Char} (h : afterJoin? chars = some rest) :
    rest.length < chars.length := by
  obtain ⟨line, hline, rfl⟩ := Option.map_eq_some_iff.1 h
  have := length_of_afterBreak? hline
  have := length_skipLines line
  have := (List.dropWhile_suffix isBlank (l := chars)).length_le
  omega

theorem length_readLastSigns (sign : Char) (chars : List Char) :
    (readLastSigns sign chars).2.length ≤ chars.length := by
  unfold readLastSigns
  split
  · split
    · split <;> simp only [List.length_cons] <;> omega
    · exact Nat.le_refl _
  · split <;> simp
  · exact Nat.le_refl _

/-- What the next piece of a string is. -/
inductive Part where
  /-- The closing signs, behind the last characters of the string. -/
  | closing (last : List Char)
  /-- A character, written as itself or as an escape. -/
  | char (c : Char)
  /-- A backslash that joins lines. -/
  | joint
  deriving DecidableEq, Repr

/-- The next piece of a string, and the text behind it. -/
def readPart? (sign : Char) (tripled : Bool) : List Char → Option (Part × List Char)
  | [] => none
  | c :: rest =>
    if c = sign && !tripled then some (.closing [], rest)
    else if c = sign && [sign, sign].isPrefixOf rest then
      some (.closing (readLastSigns sign (rest.drop 2)).1, (readLastSigns sign (rest.drop 2)).2)
    else if sign = '"' && c = '\\' then
      match tripled, afterJoin? rest with
      | true, some joined => some (.joint, joined)
      | _, _ => (readEscape? rest).map fun (escaped, rest) => (.char escaped, rest)
    else if isPlain c then some (.char c, rest)
    else if tripled && (afterBreak? (c :: rest)).isSome then some (.char c, rest)
    else none

theorem length_of_readPart? {sign : Char} {tripled : Bool} {chars rest : List Char} {part : Part}
    (h : readPart? sign tripled chars = some (part, rest)) : rest.length < chars.length := by
  unfold readPart? at h
  split at h
  · cases h
  · rename_i c tail
    split at h
    · cases h
      simp
    · split at h
      · cases h
        have := length_readLastSigns sign (tail.drop 2)
        simp only [List.length_drop, List.length_cons] at this ⊢
        omega
      · split at h
        · split at h
          · cases h
            rename_i hjoin
            have := length_of_afterJoin? hjoin
            simp only [List.length_cons]
            omega
          · obtain ⟨⟨escaped, rest'⟩, hread, heq⟩ := Option.map_eq_some_iff.1 h
            cases heq
            have := length_of_readEscape? hread
            simp only [List.length_cons]
            omega
        · split at h
          · cases h
            simp
          · split at h
            · cases h
              simp
            · cases h

/-- Read a string behind its opening signs, and the text behind its closing signs. -/
def readBody? (sign : Char) (tripled : Bool) (chars : List Char) :
    Option (List Char × List Char) :=
  match _h : readPart? sign tripled chars with
  | none => none
  | some (.closing last, rest) => some (last, rest)
  | some (.char c, rest) =>
    (readBody? sign tripled rest).map fun (text, rest) => (c :: text, rest)
  | some (.joint, rest) => readBody? sign tripled rest
termination_by chars.length
decreasing_by all_goals exact length_of_readPart? _h

theorem length_of_readBody? {sign : Char} {tripled : Bool} {chars text rest : List Char}
    (h : readBody? sign tripled chars = some (text, rest)) : rest.length < chars.length := by
  induction chars using readBody?.induct sign tripled generalizing text rest with
  | case1 chars hpart =>
    rw [readBody?, hpart] at h
    cases h
  | case2 chars last rest' hpart =>
    rw [readBody?, hpart] at h
    cases h
    exact length_of_readPart? hpart
  | case3 chars c rest' hpart ih =>
    rw [readBody?, hpart] at h
    obtain ⟨⟨text', rest''⟩, hread, heq⟩ := Option.map_eq_some_iff.1 h
    cases heq
    exact Nat.lt_trans (ih hread) (length_of_readPart? hpart)
  | case4 chars rest' hpart ih =>
    rw [readBody?, hpart] at h
    exact Nat.lt_trans (ih h) (length_of_readPart? hpart)

/-- Read a string behind its first sign: the other opening signs, if it is tripled, the line break
behind them, and the rest. Two signs that no third follows are an empty string. The flag says
whether the string is tripled. -/
def readString? (sign : Char) (chars : List Char) : Option (List Char × Bool × List Char) :=
  if [sign, sign].isPrefixOf chars then
    let body := chars.drop 2
    (readBody? sign true ((afterBreak? body).getD body)).map fun (text, rest) => (text, true, rest)
  else (readBody? sign false chars).map fun (text, rest) => (text, false, rest)

theorem length_of_readString? {sign : Char} {chars text rest : List Char} {tripled : Bool}
    (h : readString? sign chars = some (text, tripled, rest)) : rest.length < chars.length := by
  unfold readString? at h
  split at h
  · rename_i hsigns
    obtain ⟨⟨text', rest'⟩, hread, heq⟩ := Option.map_eq_some_iff.1 h
    cases heq
    have := length_of_readBody? hread
    cases hbreak : afterBreak? (chars.drop 2) with
    | none =>
      simp only [hbreak, Option.getD_none, List.length_drop] at this
      omega
    | some line =>
      have := length_of_afterBreak? hbreak
      simp only [hbreak, Option.getD_some, List.length_drop] at *
      omega
  · obtain ⟨⟨text', rest'⟩, hread, heq⟩ := Option.map_eq_some_iff.1 h
    cases heq
    exact length_of_readBody? hread

end SqlTokens.Toml
