import SqlTokens.Pattern.Bracket
import SqlTokens.Text.Invisible
import SqlTokens.Text.Pieces

/-!
# Elements of a written pattern

The pieces that the text of a pattern is cut into, before groups are put together: characters, sets,
places, the marks of groups and choices, flags, and how often the element before may occur.
-/

namespace SqlTokens.Pattern

/-- What can be switched on and off for a part of a pattern. -/
inductive Flag where
  | ignoreCase
  | multiLine
  | dotAll
  /-- A carriage return ends lines too. -/
  | returns
  | spaced
  /-- Sets, places and the case of letters are meant for all scripts, not for ASCII alone. -/
  | allScripts
  /-- Repetitions take as little as they can. It makes no difference to whether a text fits. -/
  | lazy
  deriving DecidableEq, Repr

/-- The flag with a letter. -/
def Flag.ofLetter? : Char → Option Flag
  | 'i' => some .ignoreCase
  | 'm' => some .multiLine
  | 's' => some .dotAll
  | 'R' => some .returns
  | 'x' => some .spaced
  | 'u' => some .allScripts
  | 'U' => some .lazy
  | _ => none

/-- The flags to be switched, each with its new state. -/
abbrev Switches := List (Flag × Bool)

/-- A piece of a written pattern. -/
inductive Element where
  | char (c : Char)
  /-- A character below U+0100 whose number is written in two digits. -/
  | byte (c : Char)
  | set (set : Nested)
  | place (place : Place)
  /-- The mark for any character. -/
  | any
  /-- The mark for the start of the text, or of a line. -/
  | start
  /-- The mark for the end of the text, or of a line. -/
  | finish
  | bar
  | opening (name? : Option (List Char)) (switches : Switches)
  | closing
  /-- Flags for the rest of the group. -/
  | switching (switches : Switches)
  | repetition (least : Nat) (most? : Option Nat)
  deriving DecidableEq, Repr

/-- The flags that a run of letters switches. Those behind a dash are switched off, and there is one
at least. No letter occurs twice. -/
def switches? (chars : List Char) : Option Switches :=
  match Text.pieces '-' chars with
  | [on] => if on.eraseDups = on then on.mapM fun c => (Flag.ofLetter? c).map (·, true) else none
  | [on, off] =>
    if (on ++ off).eraseDups = on ++ off && !off.isEmpty then do
      pure ((← on.mapM fun c => (Flag.ofLetter? c).map (·, true)) ++
        (← off.mapM fun c => (Flag.ofLetter? c).map (·, false)))
    else none
  | _ => none

/-- Whether a character can be part of the name of a group. Beyond ASCII all visible characters
can. -/
def isNameChar (c : Char) : Bool :=
  c.isAlphanum || c = '_' || ('\x7f' < c && !Text.isInvisible c)

/-- Whether a text can be the name of a group. -/
def isGroupName : List Char → Bool
  | [] => false
  | c :: rest =>
    isNameChar c && !c.isDigit && rest.all fun c => isNameChar c || ['.', '[', ']'].contains c

/-- The element behind an opening parenthesis, and the text behind it. -/
def readGroup? : List Char → Option (Element × List Char)
  | '?' :: '<' :: rest => readNamedGroup? rest
  | '?' :: 'P' :: '<' :: rest => readNamedGroup? rest
  | '?' :: rest =>
    let letters := rest.takeWhile fun c => c ≠ ':' && c ≠ ')'
    match rest.dropWhile fun c => c ≠ ':' && c ≠ ')' with
    | ':' :: behind => (switches? letters).map (.opening none ·, behind)
    | _ :: behind =>
      if letters.isEmpty then none else (switches? letters).map (.switching ·, behind)
    | [] => none
  | rest => some (.opening none [], rest)
where
  /-- The opening of a group whose name follows, and the text behind the name. -/
  readNamedGroup? (chars : List Char) : Option (Element × List Char) :=
    match chars.dropWhile (· ≠ '>') with
    | _ :: behind =>
      let name := chars.takeWhile (· ≠ '>')
      if isGroupName name then some (.opening (some name) [], behind) else none
    | [] => none

/-- How often something may occur, from the text between braces. -/
def count? (chars : List Char) : Option (Nat × Option Nat) :=
  let number? (chars : List Char) : Option Nat := do
    let n ← Text.ofDigits? 10 (Text.trim chars)
    if n < UInt32.size then some n else none
  match Text.pieces ',' chars with
  | [exactly] => (number? exactly).map fun n => (n, some n)
  | [least, []] => (number? least).map (·, none)
  | [least, most] => do
    let least ← number? least
    let most ← number? most
    if least ≤ most then some (least, some most) else none
  | _ => none

/-- The text behind a repetition. A question mark there makes no difference to whether a text fits.
-/
def afterRepetition : List Char → List Char
  | '?' :: rest => rest
  | chars => chars

/-- The element that the text of a pattern starts with, and the text behind it. -/
def readElement? (spaced : Bool) : List Char → Option (Element × List Char)
  | [] => none
  | c :: rest =>
    match c with
    | '(' => readGroup? (skip spaced rest)
    | ')' => some (.closing, rest)
    | '|' => some (.bar, rest)
    | '[' => (readBracket? spaced rest).map fun (set, rest) => (.set set, rest)
    | '.' => some (.any, rest)
    | '^' => some (.start, rest)
    | '$' => some (.finish, rest)
    | '*' => some (.repetition 0 none, afterRepetition rest)
    | '+' => some (.repetition 1 none, afterRepetition rest)
    | '?' => some (.repetition 0 (some 1), afterRepetition rest)
    | '\x7b' =>
      match rest.dropWhile (· ≠ '\x7d') with
      | _ :: behind =>
        (count? (tighten spaced (rest.takeWhile (· ≠ '\x7d')))).map fun (least, most?) =>
          (.repetition least most?, afterRepetition (skip spaced behind))
      | [] => none
    | '\\' =>
      (readEscape? spaced rest).map fun (escape, rest) =>
        match escape with
        | .char c => (.char c, rest)
        | .byte c => (.byte c, rest)
        | .set chars => (.set ⟨chars, 0⟩, rest)
        | .place place => (.place place, rest)
    | _ => some (.char c, rest)

end SqlTokens.Pattern
