import SqlTokens.Proofs.Tokenizer.Conservation

/-!
# What request after request is answered

A user of a tokenizer sees its answers: tokens, then the end or an error, and from then on the end
for ever. All of them can be read off a run (`answer_run`), so two tokenizers whose runs agree
cannot be told apart by any number of requests.
-/

namespace SqlTokens

namespace Transcript

/-- The answer to the request that `n` requests came before, as a transcript has it. An error takes
the place behind the tokens. -/
def answer (transcript : Transcript) (n : Nat) : Except Error (Option Token) :=
  match transcript.error? with
  | some error =>
    if n = transcript.tokens.length then .error error else .ok transcript.tokens[n]?
  | none => .ok transcript.tokens[n]?

variable {token : Token} {tokens : List Token} {error? : Option Error} {log log' : List Log.Record}

theorem answer_cons_zero : answer ⟨token :: tokens, error?, log⟩ 0 = .ok (some token) := by
  cases error? <;> rfl

theorem answer_cons_succ (n : Nat) :
    answer ⟨token :: tokens, error?, log⟩ (n + 1) = answer ⟨tokens, error?, log'⟩ n := by
  cases error? <;> simp [answer]

theorem result_summarized (summary : Nat → Log.Record) (transcript : Transcript) :
    (transcript.summarized summary).result = transcript.result := by
  obtain ⟨tokens, error?, log⟩ := transcript
  cases error? <;> rfl

end Transcript

namespace Tokenizer

/-- The answer to the request that `n` requests came before. -/
def answer (tokenizer : Tokenizer) (n : Nat) : Except Error (Option Token) :=
  (tokenizer.after n).next.1.result

theorem after_succ (tokenizer : Tokenizer) (n : Nat) :
    tokenizer.after (n + 1) = tokenizer.next.2.after n := by
  induction n with
  | zero => rfl
  | succ n ih => exact congrArg (·.next.2) ih

theorem after_of_done {tokenizer : Tokenizer} (h : tokenizer.isDone = true) (n : Nat) :
    tokenizer.after n = tokenizer := by
  induction n with
  | zero => rfl
  | succ n ih => rw [after, ih, next_of_done h]

theorem answer_succ (tokenizer : Tokenizer) (n : Nat) :
    tokenizer.answer (n + 1) = tokenizer.next.2.answer n := by
  rw [answer, after_succ, answer]

/-- A tokenizer that has nothing to hand out is done. -/
theorem isDone_next {tokenizer : Tokenizer}
    (h : ∀ token, tokenizer.next.1.result ≠ .ok (some token)) :
    tokenizer.next.2.isDone = true := by
  cases hdone : tokenizer.isDone with
  | true =>
    rw [next_of_done hdone]
    exact hdone
  | false =>
    cases next_cases hdone with
    | failed error rest eq done => rwa [eq]
    | ended rest eq done => rwa [eq]
    | token token rest eq going emitted => exact absurd (congrArg (·.1.result) eq) (h token)

/-- Behind an answer that is no token there is nothing but the end. -/
theorem answer_of_not_token {tokenizer : Tokenizer}
    (h : ∀ token, tokenizer.next.1.result ≠ .ok (some token)) (n : Nat) :
    tokenizer.answer n = if n = 0 then tokenizer.next.1.result else .ok none := by
  cases n with
  | zero => rfl
  | succ n =>
    have hdone := isDone_next h
    rw [answer_succ, answer, after_of_done hdone, next_of_done hdone]
    rfl

/-- Requests are answered as a run goes. -/
theorem answer_run (tokenizer : Tokenizer) (n : Nat) :
    tokenizer.answer n = tokenizer.run.answer n := by
  induction tokenizer using run.induct generalizing n with
  | case1 tokenizer error log rest hnext =>
    rw [answer_of_not_token (by simp [hnext]), run, hnext]
    simp [Transcript.answer]
  | case2 tokenizer log rest hnext =>
    rw [answer_of_not_token (by simp [hnext]), run, hnext]
    simp [Transcript.answer]
  | case3 tokenizer token log rest hnext ih =>
    rw [run, hnext]
    cases n with
    | zero => exact (congrArg (·.1.result) hnext).trans Transcript.answer_cons_zero.symm
    | succ n =>
      rw [answer_succ, hnext, ih]
      exact (Transcript.answer_cons_succ n).symm

/-- The answers are tokens, one that is the end or an error, and then the end for ever. -/
theorem answer_eq_of_run (tokenizer : Tokenizer) (n : Nat) :
    tokenizer.answer n =
      if n = tokenizer.run.tokens.length then tokenizer.run.error?.elim (.ok none) .error
      else .ok tokenizer.run.tokens[n]? := by
  rw [answer_run, Transcript.answer]
  cases tokenizer.run.error? with
  | some error => rfl
  | none =>
    by_cases h : n = tokenizer.run.tokens.length
    · rw [if_pos h, h, List.getElem?_eq_none (Nat.le_refl _)]
      rfl
    · rw [if_neg h]

end Tokenizer

end SqlTokens
