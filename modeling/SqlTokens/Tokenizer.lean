import SqlTokens.Lexing.Step
import SqlTokens.Log.Record

/-!
# Cutting an input into tokens

A tokenizer hands out the tokens of a source one by one. Sundry tokens can be skipped; they are read
all the same, but their text is thrown away and the next token is looked for at once.

After the end of the input, and after the first error, a tokenizer is done: it hands out nothing
more and leaves its source alone.
-/

namespace SqlTokens

/-- A source on the way of being cut into tokens. `batch` is the number of characters read at a time
and `emitted` the number of tokens handed out so far. -/
structure Tokenizer where
  source : Source
  batch : Nat
  skipSundry : Bool
  isDone : Bool
  emitted : Nat
  deriving DecidableEq, Repr

/-- The answer to a request for a token: the token, no token at the end, or an error; and what was
logged on the way. -/
structure Reply where
  result : Except Error (Option Token)
  log : List Log.Record

/-- What a whole input was cut into: its tokens, the error that broke off the work, if one did, and
what was logged. -/
structure Transcript where
  tokens : List Token
  error? : Option Error
  log : List Log.Record
  deriving DecidableEq, Repr

namespace Tokenizer

/-- A tokenizer that has handed out nothing yet. -/
def start (source : Source) (batch : Nat) (skipSundry : Bool) : Tokenizer :=
  ⟨source, batch, skipSundry, false, 0⟩

/-- The tokenizer after the end of its input or an error. -/
def finish (tokenizer : Tokenizer) (source : Source) : Tokenizer :=
  { tokenizer with source, isDone := true }

/-- Ask for the next token. -/
def next (tokenizer : Tokenizer) : Reply × Tokenizer :=
  if tokenizer.isDone then (⟨.ok none, []⟩, tokenizer)
  else
    match _h : tokenizer.source.step tokenizer.batch tokenizer.skipSundry with
    | .failed error source => (⟨.error error, []⟩, tokenizer.finish source)
    | .ended source => (⟨.ok none, [.ended tokenizer.emitted]⟩, tokenizer.finish source)
    | .skipped source => next { tokenizer with source }
    | .found token source =>
      (⟨.ok (some token), [.token token]⟩,
        { tokenizer with source, emitted := tokenizer.emitted + 1 })
termination_by tokenizer.source.size
decreasing_by exact Source.size_of_step _h rfl

/-- A token that was handed out is no longer to come. -/
theorem size_next {tokenizer tokenizer' : Tokenizer} {token : Token} {log : List Log.Record}
    (h : tokenizer.next = (⟨.ok (some token), log⟩, tokenizer')) :
    tokenizer'.source.size < tokenizer.source.size := by
  induction tokenizer using next.induct with
  | case1 tokenizer hdone =>
    rw [next, if_pos hdone] at h
    cases h
  | case2 tokenizer hdone error source hstep =>
    rw [next, if_neg hdone, hstep] at h
    cases h
  | case3 tokenizer hdone source hstep =>
    rw [next, if_neg hdone, hstep] at h
    cases h
  | case4 tokenizer hdone source hstep ih =>
    rw [next, if_neg hdone, hstep] at h
    exact Nat.lt_trans (ih h) (Source.size_of_step hstep rfl)
  | case5 tokenizer hdone token source hstep =>
    rw [next, if_neg hdone, hstep] at h
    cases h
    exact Source.size_of_step hstep rfl

/-- Ask for tokens until there are no more. -/
def run (tokenizer : Tokenizer) : Transcript :=
  match _h : tokenizer.next with
  | (⟨.error error, log⟩, _) => ⟨[], some error, log⟩
  | (⟨.ok none, log⟩, _) => ⟨[], none, log⟩
  | (⟨.ok (some token), log⟩, rest) =>
    let later := rest.run
    ⟨token :: later.tokens, later.error?, log ++ later.log⟩
termination_by tokenizer.source.size
decreasing_by exact size_next _h

end Tokenizer

namespace Transcript

/-- The tokens of an input that was read without an error. -/
def result (transcript : Transcript) : Except Error (List Token) :=
  match transcript.error? with
  | some error => .error error
  | none => .ok transcript.tokens

/-- The transcript with a last record about the number of tokens, unless an error broke off the
work. -/
def summarized (summary : Nat → Log.Record) (transcript : Transcript) : Transcript :=
  match transcript.error? with
  | some _ => transcript
  | none => { transcript with log := transcript.log ++ [summary transcript.tokens.length] }

end Transcript

end SqlTokens
