import SqlTokens.Pattern.Basic
import SqlTokens.Text.Blank
import SqlTokens.Text.Number

/-!
# Escapes in patterns

A backslash takes the meaning from a mark, or gives one to a letter: for a control character, for a
character by its number, for a set of characters, or for a place. A pattern can be spaced out, with
blanks and remarks that do not count; these can also stand inside a number or a name.
-/

namespace SqlTokens.Pattern

/-- The text behind the blanks and remarks at its front. A remark begins with a hash sign and ends
with its line. The flag says whether the text begins inside a remark. -/
def skipRemarks : Bool → List Char → List Char
  | _, [] => []
  | true, c :: rest => skipRemarks (c ≠ '\n') rest
  | false, c :: rest =>
    if Text.isBlank c then skipRemarks false rest
    else if c = '#' then skipRemarks true rest
    else c :: rest

/-- The text behind what does not count in a pattern, which is nothing unless it is spaced out. -/
def skip (spaced : Bool) (chars : List Char) : List Char :=
  if spaced then skipRemarks false chars else chars

/-- A text without its blanks, if the pattern is spaced out. -/
def tighten (spaced : Bool) (chars : List Char) : List Char :=
  if spaced then chars.filter (!Text.isBlank ·) else chars

/-- What a backslash and the characters behind it stand for. -/
inductive Escape where
  | char (c : Char)
  /-- A character below U+0100 whose number is written in two digits. -/
  | byte (c : Char)
  | set (chars : Charset)
  | place (place : Place)
  deriving DecidableEq, Repr

/-- The character with a number in base sixteen. -/
def charOfHex? (digits : List Char) : Option Char := do
  let n ← Text.ofDigits? 16 digits
  if n.isValidChar then some (Char.ofNat n) else none

/-- So many characters, and the text behind them. -/
def readExactly? (spaced : Bool) : Nat → List Char → Option (List Char × List Char)
  | 0, chars => some ([], chars)
  | n + 1, chars =>
    match skip spaced chars with
    | [] => none
    | c :: rest => (readExactly? spaced n rest).map fun (read, rest) => (c :: read, rest)

/-- The character whose number follows, in so many digits or in braces, and the text behind it. -/
def readNumbered? (spaced : Bool) (width : Nat) (chars : List Char) :
    Option (Escape × List Char) :=
  match skip spaced chars with
  | '\x7b' :: rest =>
    match rest.dropWhile (· ≠ '\x7d') with
    | [] => none
    | _ :: behind =>
      (charOfHex? (tighten spaced (rest.takeWhile (· ≠ '\x7d')))).map (.char ·, behind)
  | chars => do
    let (digits, behind) ← readExactly? spaced width chars
    let c ← charOfHex? digits
    pure (if width = 2 then .byte c else .char c, behind)

/-- Whether a character belongs to the name of a place. -/
def isPlaceChar (c : Char) : Bool :=
  c.isAlpha || c = '-'

/-- The place with a name. -/
def place? : String → Option Place
  | "start" => some .wordStart
  | "end" => some .wordEnd
  | "start-half" => some .noWordBefore
  | "end-half" => some .noWordBehind
  | _ => none

/-- The place at words that is meant, and the text behind it. It can have a name in braces; other
braces belong to what follows. -/
def readWordPlace? (spaced : Bool) : List Char → Option (Place × List Char)
  | '\x7b' :: rest =>
    match skip spaced rest with
    | [] => none
    | c :: _ =>
      if isPlaceChar c then
        match rest.dropWhile (· ≠ '\x7d') with
        | [] => none
        | _ :: behind =>
          (place? (String.ofList (tighten spaced (rest.takeWhile (· ≠ '\x7d'))))).map (·, behind)
      else some (.wordEdge, '\x7b' :: rest)
  | chars => some (.wordEdge, chars)

/-- What the characters behind a backslash stand for, and the text behind them. A mark stands for
itself; letters and digits without a meaning are refused. -/
def readEscape? (spaced : Bool) : List Char → Option (Escape × List Char)
  | [] => none
  | c :: rest =>
    match c with
    | 'a' => some (.char '\x07', rest)
    | 'f' => some (.char '\x0c', rest)
    | 't' => some (.char '\t', rest)
    | 'n' => some (.char '\n', rest)
    | 'r' => some (.char '\r', rest)
    | 'v' => some (.char '\x0b', rest)
    | 'x' => readNumbered? spaced 2 rest
    | 'u' => readNumbered? spaced 4 rest
    | 'U' => readNumbered? spaced 8 rest
    | 'd' => some (.set (.shorthand .digit), rest)
    | 'D' => some (.set (.complement (.shorthand .digit)), rest)
    | 's' => some (.set (.shorthand .space), rest)
    | 'S' => some (.set (.complement (.shorthand .space)), rest)
    | 'w' => some (.set (.shorthand .word), rest)
    | 'W' => some (.set (.complement (.shorthand .word)), rest)
    | 'A' => some (.place .textStart, rest)
    | 'z' => some (.place .textEnd, rest)
    | 'b' => (readWordPlace? spaced rest).map fun (place, rest) => (.place place, rest)
    | 'B' => some (.place .noWordEdge, rest)
    | '<' => some (.place .wordStart, rest)
    | '>' => some (.place .wordEnd, rest)
    | _ => if c.toNat < 0x80 && !c.isAlphanum then some (.char c, rest) else none

end SqlTokens.Pattern
