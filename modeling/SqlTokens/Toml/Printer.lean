import SqlTokens.Text.Number

/-!
# Writing strings of TOML

A string is written in the form that needs the fewest escapes and the fewest lines. Between double
quotes it is written as it is; if it holds a double quote or a backslash, apostrophes are used; if
it holds both quoting signs or a line break, the signs are tripled. Only controls, or runs of signs
that no form admits, force escapes.
-/

namespace SqlTokens.Toml

/-- The length of the longest run of a character. -/
def longestRun (c : Char) (text : List Char) : Nat :=
  (text.foldl (fun (longest, run) d =>
    let run := if d = c then run + 1 else 0
    (max longest run, run)) (0, 0)).1

/-- Whether a character has no form but an escape. A tab and a line break have one. -/
def isControl (c : Char) : Bool :=
  (c < ' ' && c ≠ '\t' && c ≠ '\n') || c = '\x7f'

/-- The forms in which a string can be written. -/
inductive StringForm where
  /-- Between double quotes, or three of them. -/
  | basic (tripled : Bool)
  /-- Between apostrophes, or three of them. -/
  | literal (tripled : Bool)
  deriving DecidableEq, Repr

/-- The first form in which a string can be written without an escape, or the form with escapes. -/
def StringForm.choose (text : List Char) : StringForm :=
  let controls := text.any isControl
  let backslash := text.contains '\\'
  let lines := text.contains '\n'
  let quotes := longestRun '"' text
  let apostrophes := longestRun '\'' text
  if !controls && !backslash && quotes = 0 && !lines then .basic false
  else if !controls && apostrophes = 0 && !lines then .literal false
  else if !controls && !backslash && quotes ≤ 2 then .basic true
  else if !controls && apostrophes ≤ 2 then .literal true
  else .basic lines

/-- How a string between double quotes shows a character that is not a double quote. -/
def escape (tripled : Bool) (c : Char) : List Char :=
  if c = '\x08' then ['\\', 'b']
  else if c = '\t' then ['\\', 't']
  else if c = '\n' then if tripled then ['\n'] else ['\\', 'n']
  else if c = '\x0c' then ['\\', 'f']
  else if c = '\r' then ['\\', 'r']
  else if c = '\\' then ['\\', '\\']
  else if isControl c then '\\' :: 'u' :: (Text.hexadecimal 4 c.toNat).map Char.toUpper
  else [c]

/-- The inside of a string between double quotes, where `run` double quotes stand in front of it. A
double quote is escaped if it would close the string together with those in front of it. -/
def escapeBody (tripled : Bool) (run : Nat) : List Char → List Char
  | [] => []
  | c :: text =>
    if c = '"' then
      if run < (if tripled then 2 else 0) then '"' :: escapeBody tripled (run + 1) text
      else '\\' :: '"' :: escapeBody tripled 0 text
    else escape tripled c ++ escapeBody tripled 0 text

/-- The line break behind tripled opening signs, which stands there if the string has more lines. -/
def openingBreak (tripled : Bool) (text : List Char) : List Char :=
  if tripled && text.contains '\n' then ['\n'] else []

/-- A string. -/
def string (text : List Char) : List Char :=
  match StringForm.choose text with
  | .basic tripled =>
    let signs := List.replicate (if tripled then 3 else 1) '"'
    signs ++ openingBreak tripled text ++ escapeBody tripled 0 text ++ signs
  | .literal tripled =>
    let signs := List.replicate (if tripled then 3 else 1) '\''
    signs ++ openingBreak tripled text ++ text ++ signs

end SqlTokens.Toml
