import SqlTokens.Pattern.Charset

/-!
# Patterns

A pattern is a way to say which texts are meant. A text is searched for a pattern from left to
right, by keeping all that can still be missing: what remains of a pattern behind a character is
again a list of patterns. Whether a pattern can end at a place depends on the characters before and
behind it, because a pattern can ask for the start of a line or the edge of a word.
-/

namespace SqlTokens

/-- A place in a text, which a pattern can ask for. Words are words of ASCII characters. -/
inductive Place where
  | textStart
  | textEnd
  | lineStart
  | lineEnd
  /-- The start of a line, where a carriage return ends lines too. -/
  | returnStart
  /-- The end of a line, where a carriage return ends lines too. -/
  | returnEnd
  | wordEdge
  | noWordEdge
  | wordStart
  | wordEnd
  /-- No character of a word stands before. -/
  | noWordBefore
  /-- No character of a word stands behind. -/
  | noWordBehind
  deriving DecidableEq, Repr

namespace Place

/-- Whether there is a character and it belongs to a word. -/
def isWord (c? : Option Char) : Bool :=
  c?.any (Shorthand.word.contains ·)

/-- Whether a place lies between two characters, one of which is missing at an end of the text. A
carriage return and a line feed behind it end one line together. -/
def isBetween (before? behind? : Option Char) : Place → Bool
  | textStart => before?.isNone
  | textEnd => behind?.isNone
  | lineStart => before?.all (· = '\n')
  | lineEnd => behind?.all (· = '\n')
  | returnStart => before?.all fun c => c = '\n' || (c = '\r' && behind? ≠ some '\n')
  | returnEnd => behind?.all fun c => c = '\r' || (c = '\n' && before? ≠ some '\r')
  | wordEdge => isWord before? != isWord behind?
  | noWordEdge => isWord before? == isWord behind?
  | wordStart => !isWord before? && isWord behind?
  | wordEnd => isWord before? && !isWord behind?
  | noWordBefore => !isWord before?
  | noWordBehind => !isWord behind?

/-- Whether a place depends on what words are made of. -/
def isAtWord : Place → Bool
  | textStart | textEnd | lineStart | lineEnd | returnStart | returnEnd => false
  | wordEdge | noWordEdge | wordStart | wordEnd | noWordBefore | noWordBehind => true

end Place

/-- A pattern. -/
inductive Pattern where
  /-- The empty text, anywhere. -/
  | empty
  /-- The empty text, at some places. -/
  | assertion (place : Place)
  /-- The empty text, at places that one has to know the letters of all scripts for. -/
  | unknown
  /-- One character of a set. -/
  | one (chars : Charset)
  | chain (first second : Pattern)
  | choice (left right : Pattern)
  /-- The body, at least and at most so many times in a row. -/
  | repetition (least : Nat) (most? : Option Nat) (body : Pattern)
  deriving DecidableEq, Repr

namespace Pattern

/-- One pattern behind another. The empty pattern leaves no trace. -/
def followedBy : Pattern → Pattern → Pattern
  | empty, second => second
  | first, empty => first
  | first, second => chain first second

/-- Whether a pattern can fit nothing but the empty text. -/
def takesNothing : Pattern → Bool
  | empty | assertion _ | unknown => true
  | one _ => false
  | chain first second => first.takesNothing && second.takesNothing
  | choice left right => left.takesNothing && right.takesNothing
  | repetition _ _ body => body.takesNothing

/-- The body, so many times in a row. Without a single time nothing is left of it, and one time is
enough if it takes nothing. -/
def repeated (least : Nat) (most? : Option Nat) (body : Pattern) : Pattern :=
  if most? = some 0 then empty
  else if body.takesNothing then repetition (min least 1) (some 1) body
  else repetition least most? body

/-- Whether the empty text between two characters fits a pattern. -/
def fitsEmpty (before? behind? : Option Char) : Pattern → Bool
  | empty => true
  | assertion place => place.isBetween before? behind?
  | unknown => false
  | one _ => false
  | chain first second => first.fitsEmpty before? behind? && second.fitsEmpty before? behind?
  | choice left right => left.fitsEmpty before? behind? || right.fitsEmpty before? behind?
  | repetition least _ body => least = 0 || body.fitsEmpty before? behind?

/-- What can remain of a pattern behind a character. A body that fits the empty text there can use
up all repetitions that are needed. -/
def remains (before? : Option Char) (c : Char) : Pattern → List Pattern
  | empty | assertion _ | unknown => []
  | one chars => if chars.contains c then [empty] else []
  | chain first second =>
    (first.remains before? c).map (·.followedBy second) ++
      if first.fitsEmpty before? (some c) then second.remains before? c else []
  | choice left right => left.remains before? c ++ right.remains before? c
  | repetition least most? body =>
    if most? = some 0 then []
    else
      let least := if body.fitsEmpty before? (some c) then 0 else least - 1
      (body.remains before? c).map (·.followedBy (repeated least (most?.map (· - 1)) body))

/-- Whether some part of a text fits one of the patterns that are under way or a pattern that starts
later. -/
def occursFrom (pattern : Pattern) (before? : Option Char) (underWay : List Pattern) :
    List Char → Bool
  | [] => (pattern :: underWay).any (fitsEmpty before? none)
  | c :: rest =>
    (pattern :: underWay).any (fitsEmpty before? (some c)) ||
      pattern.occursFrom (some c)
        ((pattern :: underWay).flatMap (remains before? c)).eraseDups rest

/-- Whether some part of a text fits a pattern. -/
def occursIn (pattern : Pattern) (text : List Char) : Bool :=
  pattern.occursFrom none [] text

/-- Whether all places that a pattern asks for can be found. -/
def isKnown : Pattern → Bool
  | empty | assertion _ | one _ => true
  | unknown => false
  | chain first second => first.isKnown && second.isKnown
  | choice left right => left.isKnown && right.isKnown
  | repetition _ _ body => body.isKnown

/-- The size of one state of an automaton, in bytes. -/
def stateSize : Nat := 32

/-- The size that an automaton for a pattern has, in bytes, with all repetitions written out. Sets
that reach beyond ASCII count with the states that it takes to go through the bytes of a character.
-/
def size : Pattern → Nat
  | empty | assertion _ | unknown => stateSize
  | one chars =>
    match chars with
    | .range first last =>
      if first = last then stateSize * first.utf8Size
      else if last ≤ '\x7f' then 2 * stateSize + 8
      else 9 * stateSize + 136
    | chars => if chars.goesBeyondAscii then 9 * stateSize + 136 else 2 * stateSize + 8
  | chain first second => first.size + second.size
  | choice left right => left.size + right.size + 2 * stateSize + 8
  | repetition least most? body =>
    match most? with
    | none => max 1 least * body.size + stateSize + 8
    | some most => least * body.size + (most - least) * (body.size + stateSize + 8) + stateSize

/-- The size that an automaton for a pattern may have, in bytes. -/
def maxSize : Nat := 10 * (1 <<< 20)

end Pattern

end SqlTokens
