import SqlTokens.Input.Source
import SqlTokens.Token.Opening

/-!
# Rules for the rest of a token

A rule is an automaton that reads a token behind its opener. To each character it answers that the
token goes on, that it stopped before this character, or that this character is its last. The end
of the input stops every token, so a rule is never asked about it.

`Rule.run` applies a rule to characters at hand. `Rule.consume` applies it to a source, a batch at a
time, and returns what the last batch held beyond the token. The state of the rule is carried from
batch to batch, so that the place where a batch ends makes no difference to where the token ends.
-/

namespace SqlTokens

/-- The answer of a rule to one character. -/
inductive Verdict (σ : Type) where
  | take (state : σ)
  | stopBefore
  | stopAfter
  deriving DecidableEq, Repr

/-- An automaton that finds the end of a token. -/
structure Rule (σ : Type) where
  start : σ
  answer : σ → Char → Verdict σ

/-- What is kept of the text of a token, latest character first; nothing if the token is to be
thrown away. -/
structure Sink where
  kept : Option (List Char)
  deriving DecidableEq, Repr

namespace Sink

/-- A sink that has seen nothing yet. -/
def empty (discard : Bool) : Sink :=
  ⟨if discard then none else some []⟩

/-- Add characters to the text. -/
def push (chars : List Char) (sink : Sink) : Sink :=
  ⟨sink.kept.map chars.reverseAux⟩

/-- The text, unless it was thrown away. -/
def text? (sink : Sink) : Option (List Char) :=
  sink.kept.map List.reverse

@[simp] theorem text?_empty (discard : Bool) :
    (empty discard).text? = if discard then none else some [] := by
  cases discard <;> rfl

@[simp] theorem text?_push (chars : List Char) (sink : Sink) :
    (sink.push chars).text? = sink.text?.map (· ++ chars) := by
  cases sink with
  | mk kept => cases kept <;> simp [push, text?, List.reverseAux_eq]

end Sink

/-- How far a rule came in the characters at hand: all of them belong to the token, which may go on,
or the token stopped among them. -/
inductive Advance (σ : Type) where
  | running (state : σ)
  | stopped (taken rest : List Char)
  deriving DecidableEq, Repr

namespace Rule

variable {σ : Type}

/-- Apply a rule to characters at hand. -/
def run (rule : Rule σ) : σ → List Char → Advance σ
  | state, [] => .running state
  | state, c :: cs =>
    match rule.answer state c with
    | .stopBefore => .stopped [] (c :: cs)
    | .stopAfter => .stopped [c] cs
    | .take next =>
      match rule.run next cs with
      | .running last => .running last
      | .stopped taken rest => .stopped (c :: taken) rest

/-- Where a token stopped among the characters at hand, they are cut in two. -/
theorem append_of_run {rule : Rule σ} {state : σ} {chars taken rest : List Char}
    (h : rule.run state chars = .stopped taken rest) : taken ++ rest = chars := by
  induction chars generalizing state taken rest with
  | nil => simp [run] at h
  | cons c cs ih =>
    simp only [run] at h
    split at h
    · simp only [Advance.stopped.injEq] at h
      obtain ⟨rfl, rfl⟩ := h
      rfl
    · simp only [Advance.stopped.injEq] at h
      obtain ⟨rfl, rfl⟩ := h
      rfl
    · split at h
      · simp at h
      · rename_i hr
        simp only [Advance.stopped.injEq] at h
        obtain ⟨rfl, rfl⟩ := h
        simp [ih hr]

/-- A token that does not stop before the next character takes it. -/
theorem ne_nil_of_run {rule : Rule σ} {state : σ} {c : Char} {cs taken rest : List Char}
    (hbefore : rule.answer state c ≠ .stopBefore)
    (h : rule.run state (c :: cs) = .stopped taken rest) : taken ≠ [] := by
  rintro rfl
  rw [run] at h
  split at h
  · contradiction
  · cases h
  · split at h <;> cases h

/-- Apply a rule to a source, reading `batch` characters at a time, one at least. What belongs to
the token goes into the sink, the rest of the last batch back into the source. -/
def consume (rule : Rule σ) (batch : Nat) (state : σ) (sink : Sink) (source : Source) :
    Except Fault Sink × Source :=
  match _h : source.fill (max 1 batch) with
  | (.error fault, source) => (.error fault, source)
  | (.ok [], source) => (.ok sink, source)
  | (.ok (c :: cs), source) =>
    match rule.run state (c :: cs) with
    | .stopped taken rest => (.ok (sink.push taken), source.undo rest)
    | .running state => rule.consume batch state (sink.push (c :: cs)) source
termination_by source.size
decreasing_by
  have := Source.size_fill _h
  simp at this
  omega

/-- A token of blanks. -/
def blanks : Rule Unit where
  start := ()
  answer _ c := if Text.isBlank c then .take () else .stopBefore

/-- A comment that the end of the line closes. The line break belongs to the comment. -/
def toLineEnd : Rule Unit where
  start := ()
  answer _ c := if c = '\n' then .stopAfter else .take ()

/-- A comment that a star and a slash close. The state says whether a star was just read; the star
of the opener does not count. -/
def toCommentEnd : Rule Bool where
  start := false
  answer afterStar c := if afterStar && c = '/' then .stopAfter else .take (c = '*')

/-- A text that `closer` closes, unless it is doubled. The state says whether a closer was just read
whose meaning hangs on the next character. -/
def toCloser (closer : Char) : Rule Bool where
  start := false
  answer closing c :=
    if closing then
      if c = closer then .take false else .stopBefore
    else .take (c = closer)

/-- A literal, up to the first character that ends one. -/
def word : Rule Unit where
  start := ()
  answer _ c := if isLiteralEnd c then .stopBefore else .take ()

end Rule

end SqlTokens
