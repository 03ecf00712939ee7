import SqlTokens.Proofs.Lexing.Step
import SqlTokens.Tokenizer

/-!
# Runs, step by step

A request goes through as many steps as it skips tokens, and a run through as many requests as there
are tokens. The equations below take one step off either of them, and `step_induction` goes through
the steps of a source in order. Between them, what holds of a whole run is seen from a single step.

Where the steps in between are of no account, `next_cases` says how a request can go, and
`request_induction` goes from request to request.
-/

namespace SqlTokens

/-- What holds where a step fails or finds the end, and in front of a token if it holds behind it,
holds of every source. -/
theorem Source.step_induction (batch : Nat) {motive : Source → Prop}
    (failed : ∀ source fault rest, source.stop? = some fault →
      (∀ skip, source.step batch skip = .failed (.io fault) rest) → motive source)
    (ended : ∀ source rest, source.chars = [] → source.stop? = none →
      rest.chars = [] → rest.stop? = none →
      (∀ skip, source.step batch skip = .ended rest) → motive source)
    (token : ∀ source rest, source.chars ≠ [] → rest.chars = Token.afterFirst source.chars →
      rest.stop? = source.stop? →
      (∀ skip, source.step batch skip =
        if skip && (Token.first source.chars).isSundry then .skipped rest
        else .found (Token.first source.chars) rest) → motive rest → motive source)
    (source : Source) : motive source := by
  induction h : source.chars using token_induction generalizing source with
  | nil =>
    cases source.step_cases batch with
    | failed fault rest stop eq => exact failed source fault rest stop eq
    | ended rest chars stop rest_chars rest_stop eq =>
      exact ended source rest chars stop rest_chars rest_stop eq
    | token rest chars => exact absurd h chars
  | cons c text ih =>
    cases source.step_cases batch with
    | failed fault rest stop eq => exact failed source fault rest stop eq
    | ended rest chars stop rest_chars rest_stop eq =>
      exact ended source rest chars stop rest_chars rest_stop eq
    | token rest chars rest_chars rest_stop eq =>
      exact token source rest chars rest_chars rest_stop eq (ih rest (by rw [rest_chars, h]))

namespace Tokenizer

section Equations

variable {source rest : Source} {batch emitted : Nat} {skip : Bool} {error : Error} {token : Token}

theorem next_of_failed (h : source.step batch skip = .failed error rest) :
    next ⟨source, batch, skip, false, emitted⟩ =
      (⟨.error error, []⟩, ⟨rest, batch, skip, true, emitted⟩) := by
  rw [next, if_neg Bool.false_ne_true, h]
  rfl

theorem next_of_ended (h : source.step batch skip = .ended rest) :
    next ⟨source, batch, skip, false, emitted⟩ =
      (⟨.ok none, [.ended emitted]⟩, ⟨rest, batch, skip, true, emitted⟩) := by
  rw [next, if_neg Bool.false_ne_true, h]
  rfl

theorem next_of_skipped (h : source.step batch skip = .skipped rest) :
    next ⟨source, batch, skip, false, emitted⟩ = next ⟨rest, batch, skip, false, emitted⟩ := by
  rw [next, if_neg Bool.false_ne_true, h]

theorem next_of_found (h : source.step batch skip = .found token rest) :
    next ⟨source, batch, skip, false, emitted⟩ =
      (⟨.ok (some token), [.token token]⟩, ⟨rest, batch, skip, false, emitted + 1⟩) := by
  rw [next, if_neg Bool.false_ne_true, h]

theorem run_of_failed (h : source.step batch skip = .failed error rest) :
    run ⟨source, batch, skip, false, emitted⟩ = ⟨[], some error, []⟩ := by
  rw [run, next_of_failed h]

theorem run_of_ended (h : source.step batch skip = .ended rest) :
    run ⟨source, batch, skip, false, emitted⟩ = ⟨[], none, [.ended emitted]⟩ := by
  rw [run, next_of_ended h]

theorem run_of_skipped (h : source.step batch skip = .skipped rest) :
    run ⟨source, batch, skip, false, emitted⟩ = run ⟨rest, batch, skip, false, emitted⟩ := by
  rw [run, next_of_skipped h, ← run]

theorem run_of_found (h : source.step batch skip = .found token rest) :
    run ⟨source, batch, skip, false, emitted⟩ =
      let later := run ⟨rest, batch, skip, false, emitted + 1⟩
      ⟨token :: later.tokens, later.error?, .token token :: later.log⟩ := by
  rw [run, next_of_found h]
  rfl

end Equations

section Requests

variable {tokenizer : Tokenizer}

/-- A tokenizer that is done reads nothing more. -/
theorem next_of_done (h : tokenizer.isDone = true) :
    tokenizer.next = (⟨.ok none, []⟩, tokenizer) := by
  rw [next, if_pos h]

/-- The ways in which a request can go if the tokenizer is not done. -/
inductive NextCases (tokenizer : Tokenizer) : Prop where
  | failed (error : Error) (rest : Tokenizer) (eq : tokenizer.next = (⟨.error error, []⟩, rest))
      (done : rest.isDone = true)
  | ended (rest : Tokenizer) (eq : tokenizer.next = (⟨.ok none, [.ended tokenizer.emitted]⟩, rest))
      (done : rest.isDone = true)
  | token (token : Token) (rest : Tokenizer)
      (eq : tokenizer.next = (⟨.ok (some token), [.token token]⟩, rest))
      (going : rest.isDone = false) (emitted : rest.emitted = tokenizer.emitted + 1)

theorem next_cases (h : tokenizer.isDone = false) : NextCases tokenizer := by
  induction tokenizer using next.induct with
  | case1 tokenizer hdone =>
    rw [h] at hdone
    cases hdone
  | case2 tokenizer hdone error source hstep =>
    refine .failed error (tokenizer.finish source) ?_ rfl
    rw [next, if_neg hdone, hstep]
  | case3 tokenizer hdone source hstep =>
    refine .ended (tokenizer.finish source) ?_ rfl
    rw [next, if_neg hdone, hstep]
  | case4 tokenizer hdone source hstep ih =>
    have hnext : tokenizer.next = next { tokenizer with source } := by
      rw [next, if_neg hdone, hstep]
    -- What is skipped shows neither in the answer nor in the count.
    cases ih h with
    | failed error rest eq done => exact .failed error rest (hnext.trans eq) done
    | ended rest eq done => exact .ended rest (hnext.trans eq) done
    | token token rest eq going emitted => exact .token token rest (hnext.trans eq) going emitted
  | case5 tokenizer hdone token source hstep =>
    refine .token token { tokenizer with source, emitted := tokenizer.emitted + 1 } ?_ h rfl
    rw [next, if_neg hdone, hstep]

/-- What holds where a request fails or finds the end, and in front of a token if it holds behind
it, holds of every tokenizer that is not done. -/
theorem request_induction {motive : ∀ tokenizer : Tokenizer, tokenizer.isDone = false → Prop}
    (failed : ∀ tokenizer h error rest, tokenizer.next = (⟨.error error, []⟩, rest) →
      rest.isDone = true → motive tokenizer h)
    (ended : ∀ tokenizer h rest, tokenizer.next = (⟨.ok none, [.ended tokenizer.emitted]⟩, rest) →
      rest.isDone = true → motive tokenizer h)
    (token : ∀ tokenizer h token rest (going : rest.isDone = false),
      tokenizer.next = (⟨.ok (some token), [.token token]⟩, rest) →
      rest.emitted = tokenizer.emitted + 1 → motive rest going → motive tokenizer h)
    (tokenizer : Tokenizer) (h : tokenizer.isDone = false) : motive tokenizer h := by
  induction hsize : tokenizer.source.size using Nat.strongRecOn generalizing tokenizer with
  | ind n ih =>
    cases next_cases h with
    | failed error rest eq done => exact failed tokenizer h error rest eq done
    | ended rest eq done => exact ended tokenizer h rest eq done
    | token token' rest eq going emitted =>
      have hlt : rest.source.size < n := hsize ▸ size_next eq
      exact token tokenizer h token' rest going eq emitted (ih _ hlt rest going rfl)

end Requests

end Tokenizer

end SqlTokens
