import SqlTokens.Pattern.Escape

/-!
# Sets in brackets

A set of characters is written between brackets, as single characters, ranges, escapes, names
between colons, and sets in brackets of their own. A caret at the front takes the complement. Two
sets can be joined by a doubled mark, for what they share or what only one of them has; the marks
group to the left. How deep a set is nested is counted along with it.
-/

namespace SqlTokens.Pattern

/-- A single item between brackets and the text behind it: a character, or a set that an escape
stands for. -/
def readItem? (spaced : Bool) : List Char → Option ((Char ⊕ Charset) × List Char)
  | [] => none
  | '\\' :: rest => do
    match ← readEscape? spaced rest with
    | (.char c, rest) => pure (.inl c, rest)
    | (.byte c, rest) => pure (.inl c, rest)
    | (.set chars, rest) => pure (.inr chars, rest)
    | (.place _, _) => none
  | c :: rest => some (.inl c, rest)

/-- The set of a single item. -/
def ofItem : Char ⊕ Charset → Charset
  | .inl c => .single c
  | .inr chars => chars

/-- An item or a range between brackets and the text behind it. A dash before a bracket or before
another dash makes no range. -/
def readRange? (spaced : Bool) (chars : List Char) : Option (Charset × List Char) := do
  let (first, rest) ← readItem? spaced chars
  match skip spaced rest with
  | '-' :: behind =>
    match skip spaced behind with
    | ']' :: _ => pure (ofItem first, '-' :: behind)
    | '-' :: _ => pure (ofItem first, '-' :: behind)
    | behind =>
      match first, ← readItem? spaced behind with
      | .inl first, (.inl last, rest) =>
        if first ≤ last then pure (.range first last, rest) else none
      | _, _ => none
  | rest => pure (ofItem first, rest)

/-- The named set that begins behind a bracket, and the text behind it. -/
def readNamed? : List Char → Option (Charset × List Char)
  | ':' :: rest =>
    let (negated, rest) := match rest with
      | '^' :: rest => (true, rest)
      | _ => (false, rest)
    match rest.dropWhile (· ≠ ':') with
    | ':' :: ']' :: behind =>
      (Charset.named? (String.ofList (rest.takeWhile (· ≠ ':')))).map fun chars =>
        (if negated then .complement chars else chars, behind)
    | _ => none
  | _ => none

/-- A set, and how deep its brackets are nested. -/
structure Nested where
  chars : Charset
  depth : Nat
  deriving DecidableEq, Repr

namespace Nested

/-- Sets side by side, the latest first. Several of them make one more level than the deepest. -/
def union : List Nested → Nested
  | [] => ⟨.empty, 0⟩
  | [set] => set
  | set :: sets =>
    let others := sets.foldl (fun chars set => .union set.chars chars) .empty
    ⟨.union others set.chars, 1 + (set :: sets).foldl (fun depth set => max depth set.depth) 0⟩

/-- Two sets with a doubled mark between them. -/
def join (left : Nested) (combine : Charset → Charset → Charset) (right : Nested) : Nested :=
  ⟨combine left.chars right.chars, 1 + max left.depth right.depth⟩

/-- A set between brackets. -/
def bracket (negated : Bool) (set : Nested) : Nested :=
  ⟨if negated then .complement set.chars else set.chars, 1 + set.depth⟩

end Nested

/-- What comes first behind an opening bracket: whether the complement is meant, the items that
stand for themselves only there, and the text behind them. -/
def readOpening (spaced : Bool) (chars : List Char) : Bool × List Nested × List Char :=
  let (negated, chars) := match skip spaced chars with
    | '^' :: rest => (true, skip spaced rest)
    | chars => (false, chars)
  match chars with
  | ']' :: rest => (negated, [⟨.single ']', 0⟩], rest)
  | _ =>
    (negated, (chars.takeWhile (· = '-')).map fun _ => ⟨.single '-', 0⟩, chars.dropWhile (· = '-'))

/-- The items up to a closing bracket, and the text behind it. `finish` says what becomes of the
items from the last doubled mark on, `items` are those read so far, the latest first. -/
def readItems? (spaced : Bool) (fuel : Nat) (finish : Nested → Nested) (items : List Nested)
    (chars : List Char) : Option (Nested × List Char) :=
  match fuel with
  | 0 => none
  | fuel + 1 =>
    let left := finish (Nested.union items)
    match skip spaced chars with
    | ']' :: rest => some (left, rest)
    | '&' :: '&' :: rest => readItems? spaced fuel (left.join .inter) [] rest
    | '-' :: '-' :: rest => readItems? spaced fuel (left.join .diff) [] rest
    | '~' :: '~' :: rest => readItems? spaced fuel (left.join .symmDiff) [] rest
    | '[' :: rest =>
      match readNamed? rest with
      | some (chars, rest) => readItems? spaced fuel finish (⟨chars, 0⟩ :: items) rest
      | none => do
        let (negated, first, rest) := readOpening spaced rest
        let (set, rest) ← readItems? spaced fuel id first rest
        readItems? spaced fuel finish (set.bracket negated :: items) rest
    | chars => do
      let (chars, rest) ← readRange? spaced chars
      readItems? spaced fuel finish (⟨chars, 0⟩ :: items) rest

/-- The set that is written behind an opening bracket, and the text behind it. -/
def readBracket? (spaced : Bool) (chars : List Char) : Option (Nested × List Char) :=
  let (negated, first, rest) := readOpening spaced chars
  (readItems? spaced (chars.length + 1) id first rest).map fun (set, rest) =>
    (set.bracket negated, rest)

end SqlTokens.Pattern
