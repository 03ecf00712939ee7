import SqlTokens.Lexing.Rule

/-!
# Reading one token

The characters that settled the kind of a token have been read already. Those that belong to its
opener are its first characters; the others are returned to the source, and the rule of the kind
reads on from there. A symbol is its opener and nothing else.

A token that is thrown away is read in the same way; only its text is not kept.
-/

namespace SqlTokens

/-- A blank between two things that are not blank. The second of the two characters looked at
already shows that the token is over. -/
def isSingleBlank : List Char → Bool
  | [blank, next] => Text.isBlank blank && !Text.isBlank next
  | _ => false

/-- The number of characters of the symbol that opens with the characters looked at. -/
def symbolWidth : List Char → Nat
  | first :: second :: _ => if isCompoundOperator first second then 2 else 1
  | _ => 1

/-- The width of the opener of a quoted text and the character that closes it. Nothing opens where
no character was looked at. -/
def quoteOpening? : List Char → Option (Nat × Char)
  | 'N' :: '\'' :: _ => some (2, '\'')
  | quote :: _ => some (1, quote)
  | [] => none

/-- A text that is not empty opens with one character at least. -/
theorem quoteOpening?_cons (c : Char) (cs : List Char) :
    ∃ width closer, quoteOpening? (c :: cs) = some (width, closer) ∧ 0 < width := by
  unfold quoteOpening?
  split
  · exact ⟨2, _, rfl, by decide⟩
  · exact ⟨1, _, rfl, by decide⟩
  · contradiction

/-- Take an opener of `width` characters and go on with a rule. -/
def scanAfter {σ : Type} (rule : Rule σ) (width batch : Nat) (lookahead : List Char) (sink : Sink)
    (source : Source) : Except Fault Sink × Source :=
  rule.consume batch rule.start (sink.push (lookahead.take width))
    (source.undo (lookahead.drop width))

/-- Take an opener of `width` characters and nothing else. -/
def scanOnly (width : Nat) (lookahead : List Char) (sink : Sink) (source : Source) :
    Except Fault Sink × Source :=
  (.ok (sink.push (lookahead.take width)), source.undo (lookahead.drop width))

/-- Read a token of a given kind, whose first characters have been looked at, into a sink. -/
def scanInto (kind : Kind) (batch : Nat) (lookahead : List Char) (sink : Sink) (source : Source) :
    Except Fault Sink × Source :=
  match kind with
  | .whitespace =>
    if isSingleBlank lookahead then scanOnly 1 lookahead sink source
    else scanAfter .blanks 0 batch lookahead sink source
  | .lineComment => scanAfter .toLineEnd 2 batch lookahead sink source
  | .blockComment => scanAfter .toCommentEnd 2 batch lookahead sink source
  | .squareString => scanAfter (.toCloser ']') 1 batch lookahead sink source
  | .quotedString =>
    match quoteOpening? lookahead with
    | none => (.ok sink, source)
    | some (width, closer) => scanAfter (.toCloser closer) width batch lookahead sink source
  | .literal => scanAfter .word 1 batch lookahead sink source
  | .symbol => scanOnly (symbolWidth lookahead) lookahead sink source

/-- Read a token of a given kind, whose first characters have been looked at. Its text is absent if
it is to be thrown away. -/
def scan (kind : Kind) (batch : Nat) (lookahead : List Char) (discard : Bool) (source : Source) :
    Except Fault (Option (List Char)) × Source :=
  match scanInto kind batch lookahead (.empty discard) source with
  | (.ok sink, source) => (.ok sink.text?, source)
  | (.error fault, source) => (.error fault, source)

end SqlTokens
