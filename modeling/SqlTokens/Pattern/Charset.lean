/-!
# Sets of characters

The sets that a pattern can ask a character to be in. A set is kept in the way it is written and not
as a function, so that two sets can be compared and so that one can see what it takes to know them.
The named sets and the shorthands hold ASCII characters only.
-/

namespace SqlTokens

/-- A set with a letter of its own. -/
inductive Shorthand where
  | digit
  | space
  | word
  deriving DecidableEq, Repr

/-- Whether a character is in the set of a shorthand. -/
def Shorthand.contains (c : Char) : Shorthand → Bool
  | digit => c.isDigit
  | space => c = ' ' || ('\t' ≤ c && c ≤ '\r')
  | word => c.isAlphanum || c = '_'

/-- A set of characters. -/
inductive Charset where
  | empty
  /-- The characters from one to another; both belong to the set. -/
  | range (first last : Char)
  | shorthand (kind : Shorthand)
  | complement (chars : Charset)
  | union (left right : Charset)
  | inter (left right : Charset)
  /-- The characters of one set that are not in another. -/
  | diff (left right : Charset)
  /-- A set, and the other case of its ASCII letters. -/
  | anyCase (chars : Charset)
  deriving DecidableEq, Repr

namespace Charset

/-- The other case of an ASCII letter. -/
def otherCase (c : Char) : Char :=
  if c.isUpper then c.toLower else c.toUpper

/-- Whether a character is in a set. -/
def contains : Charset → Char → Bool
  | empty, _ => false
  | range first last, c => first ≤ c && c ≤ last
  | shorthand kind, c => kind.contains c
  | complement chars, c => !chars.contains c
  | union left right, c => left.contains c || right.contains c
  | inter left right, c => left.contains c && right.contains c
  | diff left right, c => left.contains c && !right.contains c
  | anyCase chars, c => chars.contains c || chars.contains (otherCase c)

/-- The set of one character. -/
def single (c : Char) : Charset :=
  range c c

/-- The set of all characters. -/
def all : Charset :=
  complement empty

/-- The characters of a list. -/
def ofList (chars : List Char) : Charset :=
  chars.foldr (fun c set => union (single c) set) empty

/-- The characters that are in one of two sets and not in both. -/
def symmDiff (left right : Charset) : Charset :=
  union (diff left right) (diff right left)

/-- The lower-case letters of ASCII. -/
def lower : Charset :=
  range 'a' 'z'

/-- The upper-case letters of ASCII. -/
def upper : Charset :=
  range 'A' 'Z'

/-- The letters and digits of ASCII. -/
def alphanum : Charset :=
  union (union lower upper) (range '0' '9')

/-- The set with a name. -/
def named? : String → Option Charset
  | "alnum" => some alphanum
  | "alpha" => some (union lower upper)
  | "ascii" => some (range '\x00' '\x7f')
  | "blank" => some (ofList ['\t', ' '])
  | "cntrl" => some (union (range '\x00' '\x1f') (single '\x7f'))
  | "digit" => some (range '0' '9')
  | "graph" => some (range '!' '~')
  | "lower" => some lower
  | "print" => some (range ' ' '~')
  | "punct" => some (diff (range '!' '~') alphanum)
  | "space" => some (union (range '\t' '\r') (single ' '))
  | "upper" => some upper
  | "word" => some (union alphanum (single '_'))
  | "xdigit" => some (union (range '0' '9') (union (range 'a' 'f') (range 'A' 'F')))
  | _ => none

/-- The set that is meant where the case of ASCII letters does not count. Sets are widened before
they are compared with each other. -/
def ignoringCase : Charset → Charset
  | empty => empty
  | range first last => anyCase (range first last)
  | shorthand kind => shorthand kind
  | complement chars => complement chars.ignoringCase
  | union left right => union left.ignoringCase right.ignoringCase
  | inter left right => inter left.ignoringCase right.ignoringCase
  | diff left right => diff left.ignoringCase right.ignoringCase
  | anyCase chars => anyCase chars

/-- Whether a set has a part with a given property. -/
def hasPart (p : Charset → Bool) (chars : Charset) : Bool :=
  p chars ||
    match chars with
    | empty | range _ _ | shorthand _ => false
    | complement chars | anyCase chars => chars.hasPart p
    | union left right | inter left right | diff left right => left.hasPart p || right.hasPart p

/-- Whether a part of a set is a character or a range. -/
def namesChars : Charset → Bool :=
  hasPart fun
    | range _ _ => true
    | _ => false

/-- Whether a part of a set is a shorthand. -/
def usesShorthand : Charset → Bool :=
  hasPart fun
    | shorthand _ => true
    | _ => false

/-- Whether a part of a set is written as a complement or goes beyond ASCII. -/
def goesBeyondAscii : Charset → Bool :=
  hasPart fun
    | complement _ => true
    | range _ last => '\x7f' < last
    | _ => false

end Charset

end SqlTokens
