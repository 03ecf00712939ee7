import SqlTokens.Pattern.Element

/-!
# Reading patterns

The text of a pattern is read from left to right. Groups that are still open are kept on a stack.
Flags hold to the end of the group in which they are switched, across its choices.

Nothing is known here of letters beyond ASCII. A pattern for all scripts, which is what is meant
unless a flag says otherwise, is refused if it takes such knowledge: for a shorthand, for the edge
of a word, or to leave the case of a character out of account. A pattern for ASCII is refused if it
leaves ASCII by a complement or by a range. Patterns that are too large or too deep are refused too.
-/

namespace SqlTokens.Pattern

/-- The flags that are on. -/
structure Flags where
  ignoreCase : Bool := false
  multiLine : Bool := false
  dotAll : Bool := false
  returns : Bool := false
  spaced : Bool := false
  allScripts : Bool := true
  deriving DecidableEq, Repr

namespace Flags

/-- Switch a flag. -/
def switch (flags : Flags) : Flag × Bool → Flags
  | (.ignoreCase, on) => { flags with ignoreCase := on }
  | (.multiLine, on) => { flags with multiLine := on }
  | (.dotAll, on) => { flags with dotAll := on }
  | (.returns, on) => { flags with returns := on }
  | (.spaced, on) => { flags with spaced := on }
  | (.allScripts, on) => { flags with allScripts := on }
  | (.lazy, _) => flags

/-- The pattern for a character of a set, unless it takes knowledge of other letters than those of
ASCII, or leaves ASCII where ASCII is meant. -/
def set? (flags : Flags) (chars : Charset) : Option Pattern :=
  if flags.allScripts then
    if chars.usesShorthand || flags.ignoreCase && chars.namesChars then none else some (.one chars)
  else if chars.goesBeyondAscii then none
  else some (.one (if flags.ignoreCase then chars.ignoringCase else chars))

/-- The pattern for a character. One beyond ASCII has no other case where ASCII is meant. -/
def char? (flags : Flags) (c : Char) : Option Pattern :=
  if c ≤ '\x7f' || flags.ignoreCase && flags.allScripts then flags.set? (.single c)
  else some (.one (.single c))

/-- The pattern for a character whose number is written in two digits. Where ASCII is meant, the
number is that of a byte, and no character is a byte beyond ASCII. -/
def byte? (flags : Flags) (c : Char) : Option Pattern :=
  if flags.allScripts || c ≤ '\x7f' then flags.char? c else none

/-- The pattern for any character. Where ASCII is meant it would be any byte, and is refused. -/
def any? (flags : Flags) : Option Pattern :=
  if !flags.allScripts then none
  else if flags.dotAll then some (.one .all)
  else if flags.returns then some (.one (.complement (.ofList ['\r', '\n'])))
  else some (.one (.complement (.single '\n')))

/-- The pattern for the start of the text or of a line. -/
def start (flags : Flags) : Pattern :=
  .assertion <|
    if !flags.multiLine then .textStart else if flags.returns then .returnStart else .lineStart

/-- The pattern for the end of the text or of a line. -/
def finish (flags : Flags) : Pattern :=
  .assertion <|
    if !flags.multiLine then .textEnd else if flags.returns then .returnEnd else .lineEnd

/-- The pattern for a place. -/
def place (flags : Flags) (place : Place) : Pattern :=
  if flags.allScripts && place.isAtWord then .unknown else .assertion place

end Flags

/-- A part of a pattern, and how deep it is nested. -/
structure Part where
  pattern : Pattern
  depth : Nat := 0
  deriving DecidableEq, Repr

/-- A group that is still open: the flags, the choices before the last bar, and the parts behind the
bar, the latest first in both. A switch of flags takes the place of a part and is none. -/
structure Group where
  flags : Flags := {}
  choices : List Part := []
  parts : List (Option Part) := []
  deriving DecidableEq, Repr

namespace Group

/-- One level more than the deepest of some parts. -/
def depthAbove (parts : List Part) : Nat :=
  1 + parts.foldl (fun depth part => max depth part.depth) 0

/-- The parts behind the last bar as one part. -/
def joined (group : Group) : Part :=
  match group.parts with
  | [] => ⟨.empty, 0⟩
  | [part?] => part?.getD ⟨.empty, 0⟩
  | parts =>
    let parts := parts.filterMap id
    ⟨parts.foldl (fun rest part => part.pattern.followedBy rest) .empty, depthAbove parts⟩

/-- The part that a group stands for. -/
def whole (group : Group) : Part :=
  match group.choices with
  | [] => group.joined
  | choices =>
    ⟨choices.foldl (fun others part => .choice part.pattern others) group.joined.pattern,
      depthAbove (group.joined :: choices)⟩

/-- Add a part. -/
def add (group : Group) (part : Part) : Group :=
  { group with parts := some part :: group.parts }

/-- Add a part that is not nested, if it can be read. -/
def add? (group : Group) (pattern? : Option Pattern) : Option Group :=
  pattern?.map fun pattern => group.add { pattern }

/-- Begin another choice. -/
def another (group : Group) : Group :=
  { group with choices := group.joined :: group.choices, parts := [] }

/-- Switch flags. -/
def switch (group : Group) (switches : Switches) : Group :=
  { group with flags := switches.foldl .switch group.flags, parts := none :: group.parts }

/-- Let the latest part occur so many times. -/
def repeat? (group : Group) (least : Nat) (most? : Option Nat) : Option Group :=
  match group.parts with
  | some part :: parts =>
    some { group with
      parts := some ⟨repeated least most? part.pattern, 1 + part.depth⟩ :: parts }
  | _ => none

end Group

/-- A pattern that is being read: the innermost group, the groups around it, and the names of
groups. -/
structure Draft where
  group : Group := {}
  outer : List Group := []
  names : List (List Char) := []
  deriving DecidableEq, Repr

/-- The number of levels that a pattern may have. -/
def maxDepth : Nat := 250

namespace Draft

/-- Change the innermost group, if it can be changed. -/
def change (draft : Draft) (group? : Option Group) : Option Draft :=
  group?.map fun group => { draft with group }

/-- Take the next element. -/
def take (draft : Draft) (element : Element) : Option Draft :=
  let group := draft.group
  match element with
  | .char c => draft.change (group.add? (group.flags.char? c))
  | .byte c => draft.change (group.add? (group.flags.byte? c))
  | .set set =>
    draft.change ((group.flags.set? set.chars).map fun pattern => group.add ⟨pattern, set.depth⟩)
  | .place place => draft.change (group.add? (some (group.flags.place place)))
  | .any => draft.change (group.add? group.flags.any?)
  | .start => draft.change (group.add? (some group.flags.start))
  | .finish => draft.change (group.add? (some group.flags.finish))
  | .bar => some { draft with group := group.another }
  | .opening name? switches =>
    if name?.any draft.names.contains then none
    else
      some { draft with
        group := { flags := switches.foldl .switch group.flags }
        outer := group :: draft.outer
        names := name?.toList ++ draft.names }
  | .closing =>
    match draft.outer with
    | [] => none
    | parent :: outer =>
      let part := group.whole
      some { draft with group := parent.add ⟨part.pattern, 1 + part.depth⟩, outer }
  | .switching switches => some { draft with group := group.switch switches }
  | .repetition least most? => draft.change (group.repeat? least most?)

/-- The pattern that has been read, if no group is open and it can be searched for. -/
def pattern? (draft : Draft) : Option Pattern :=
  let part := draft.group.whole
  if draft.outer.isEmpty && part.depth ≤ maxDepth && part.pattern.isKnown &&
      part.pattern.size ≤ maxSize
  then some part.pattern
  else none

/-- Take all elements of a text that has at most so many characters. -/
def read (fuel : Nat) (draft : Draft) (chars : List Char) : Option Draft :=
  match fuel, skip draft.group.flags.spaced chars with
  | _, [] => some draft
  | 0, _ => none
  | fuel + 1, chars => do
    let (element, rest) ← readElement? draft.group.flags.spaced chars
    read fuel (← draft.take element) rest

end Draft

/-- The pattern that a text writes. -/
def ofText? (chars : List Char) : Option Pattern := do
  (← Draft.read chars.length {} chars).pattern?

end SqlTokens.Pattern
