import SqlTokens.Proofs.Lexer
import SqlTokens.Proofs.Tokenizer.Answers

/-!
# What is logged

A request leaves a record of the token that it hands out, or of the end that it comes to, and
nothing else. Tokens that are skipped leave no record, nor does an error. So the log of a run can be
read off what the run hands out (`log_run`), and so many requests have logged so many records of it
(`logged_eq_take`). Behind the end and behind an error a tokenizer answers without a look at its
source, and it logs nothing.

When a whole input was read to its end, one more record sums it up (`log_of_result_ok`).
-/

namespace SqlTokens

open Log (Record)

namespace Tokenizer

/-- What a number of requests have logged. -/
def logged (tokenizer : Tokenizer) : Nat → List Record
  | 0 => []
  | n + 1 => tokenizer.logged n ++ (tokenizer.after n).next.1.log

section Requests

variable {tokenizer : Tokenizer}

theorem logged_succ (tokenizer : Tokenizer) (n : Nat) :
    tokenizer.logged (n + 1) = tokenizer.next.1.log ++ tokenizer.next.2.logged n := by
  induction n with
  | zero => exact (List.append_nil _).symm
  | succ n ih => rw [logged, ih, after_succ, logged, List.append_assoc]

theorem logged_of_done (h : tokenizer.isDone = true) (n : Nat) : tokenizer.logged n = [] := by
  induction n with
  | zero => rfl
  | succ n ih => rw [logged_succ, next_of_done h, ih, List.append_nil]

/-- A run logs the tokens that it hands out, and if it comes to the end, how many tokens were handed
out in all. -/
theorem log_run (h : tokenizer.isDone = false) :
    tokenizer.run.log = tokenizer.run.tokens.map .token ++
      if tokenizer.run.error?.isNone then [.ended (tokenizer.emitted + tokenizer.run.tokens.length)]
      else [] := by
  induction tokenizer, h using request_induction with
  | failed tokenizer h error rest eq done =>
    rw [run, eq]
    rfl
  | ended tokenizer h rest eq done =>
    rw [run, eq]
    rfl
  | token tokenizer h token rest going eq emitted ih =>
    rw [run, eq]
    simp only [ih, emitted, List.length_cons, Nat.add_right_comm _ 1, Nat.add_assoc]
    rfl

/-- Every request of a run adds the next record to the log, until there are no more. -/
theorem logged_eq_take (h : tokenizer.isDone = false) (n : Nat) :
    tokenizer.logged n = tokenizer.run.log.take n := by
  induction tokenizer, h using request_induction generalizing n with
  | failed tokenizer h error rest eq done =>
    rw [run, eq]
    cases n with
    | zero => rfl
    | succ n => rw [logged_succ, eq, logged_of_done done]; rfl
  | ended tokenizer h rest eq done =>
    rw [run, eq]
    cases n with
    | zero => rfl
    | succ n => rw [logged_succ, eq, logged_of_done done]; simp
  | token tokenizer h token rest going eq emitted ih =>
    rw [run, eq]
    cases n with
    | zero => rfl
    | succ n =>
      rw [logged_succ, eq, ih]
      rfl

/-- A tokenizer is done once it has been asked for one more than the tokens of its run. -/
theorem isDone_after (h : tokenizer.isDone = false) {n : Nat}
    (hn : tokenizer.run.tokens.length < n) : (tokenizer.after n).isDone = true := by
  obtain ⟨n, rfl⟩ : ∃ m, n = m + 1 := ⟨n - 1, by omega⟩
  induction tokenizer, h using request_induction generalizing n with
  | failed tokenizer h error rest eq done => rw [after_succ, eq, after_of_done done, done]
  | ended tokenizer h rest eq done => rw [after_succ, eq, after_of_done done, done]
  | token tokenizer h token rest going eq emitted ih =>
    rw [run, eq, List.length_cons] at hn
    obtain ⟨n, rfl⟩ : ∃ m, n = m + 1 := ⟨n - 1, by omega⟩
    rw [after_succ, eq]
    exact ih n (Nat.lt_of_succ_lt_succ hn)

/-- Where an input was read to its end, its tokens, their number and the summary are logged. -/
theorem log_of_result_ok (h : tokenizer.isDone = false) (hfirst : tokenizer.emitted = 0)
    {tokens : List Token} (hresult : tokenizer.run.result = .ok tokens) (summary : Nat → Record) :
    (tokenizer.run.summarized summary).log =
      tokens.map .token ++ [.ended tokens.length, summary tokens.length] := by
  have hlog := log_run h
  rw [hfirst, Nat.zero_add] at hlog
  rw [Transcript.result] at hresult
  rw [Transcript.summarized]
  cases herror : tokenizer.run.error? with
  | none =>
    rw [herror] at hresult hlog
    cases hresult
    simp [hlog]
  | some error =>
    rw [herror] at hresult
    cases hresult

theorem log_of_result_error (h : tokenizer.isDone = false) {error : Error}
    (hresult : tokenizer.run.result = .error error) (summary : Nat → Record) :
    (tokenizer.run.summarized summary).log = tokenizer.run.tokens.map .token := by
  have hlog := log_run h
  rw [Transcript.result] at hresult
  rw [Transcript.summarized]
  cases herror : tokenizer.run.error? with
  | none =>
    rw [herror] at hresult
    cases hresult
  | some error =>
    rw [herror] at hlog
    simp [hlog]

end Requests

end Tokenizer

namespace Log.Record

theorem filter_level_token (tokens : List Token) :
    (tokens.map token).filter (·.level = .trace) = tokens.map token := by
  rw [List.filter_eq_self]
  intro record hrecord
  obtain ⟨t, -, rfl⟩ := List.mem_map.mp hrecord
  rfl

/-- No record of a token reads like the record of an end. -/
theorem filter_message_token (tokens : List Token) :
    (tokens.map token).filter ("tokenizer done, ".toList.isPrefixOf ·.message) = [] := by
  rw [List.filter_eq_nil_iff]
  intro record hrecord
  obtain ⟨⟨kind, text⟩, -, rfl⟩ := List.mem_map.mp hrecord
  rw [message_token]
  cases kind <;> simp [Token.labelled, Kind.name]

end Log.Record

namespace Tokenizer

/-- The answers to any number of requests are tokens, then one that is the end or an error, and then
the end for ever. Once there was no token any more, a request is answered in the same way whatever
the source is, leaves the source alone and logs nothing.

The log of a run has a record for each token that is handed out, in order, and for none that is
skipped; they are its records of the finest level. It has one more record if the run comes to the
end, with the number of these tokens, and none if there is an error. Each request logs the next of
them. Where a whole text or stream is read, a last record follows with the same number, and for a
text with the number of its characters. -/
theorem log_tells_what_was_handed_out (source : Source) (batch : Nat) (skip : Bool) :
    let tokenizer := start source batch skip
    let run := tokenizer.run
    (∀ n, tokenizer.answer n =
      if n = run.tokens.length then run.error?.elim (.ok none) .error else .ok run.tokens[n]?) ∧
    (∀ n, run.tokens.length < n → ∀ source',
      next { tokenizer.after n with source := source' } =
        (⟨.ok none, []⟩, { tokenizer.after n with source := source' })) ∧
    ((∀ n, tokenizer.logged n = run.log.take n) ∧
      run.log = run.tokens.map .token ++
        (if run.error?.isNone then [.ended run.tokens.length] else []) ∧
      run.log.filter (·.level = .trace) = run.tokens.map .token ∧
      run.log.filter ("tokenizer done, ".toList.isPrefixOf ·.message) =
        (if run.error?.isNone then [.ended run.tokens.length] else []) ∧
      (skip = true → ∀ token ∈ run.tokens, token.isSundry = false)) ∧
    (∀ (lexer : Lexer) (text : List Char), ∃ tokens, (lexer.readText text).result = .ok tokens ∧
      (lexer.readText text).log = tokens.map Record.token ++
        [.ended tokens.length, .textRead text.length tokens.length]) ∧
    ∀ (lexer : Lexer) (feed : Feed),
      (∀ tokens, (lexer.readFeed feed).result = .ok tokens →
        (lexer.readFeed feed).log = tokens.map .token ++
          [.ended tokens.length, .streamRead tokens.length]) ∧
      ∀ error, (lexer.readFeed feed).result = .error error →
        ∃ tokens : List Token, (lexer.readFeed feed).log = tokens.map .token := by
  intro tokenizer run
  have hgoing : tokenizer.isDone = false := rfl
  have hlog : run.log = run.tokens.map .token ++
      (if run.error?.isNone then [.ended run.tokens.length] else []) := by
    have hrun := log_run hgoing
    rwa [show tokenizer.emitted = 0 from rfl, Nat.zero_add] at hrun
  refine ⟨answer_eq_of_run tokenizer, ?_, ⟨logged_eq_take hgoing, hlog, ?_, ?_, ?_⟩, ?_, ?_⟩
  · intro n hn source'
    exact next_of_done (isDone_after hgoing hn)
  · rw [hlog, List.filter_append, Record.filter_level_token]
    cases run.error? <;> simp [Record.level]
  · rw [hlog, List.filter_append, Record.filter_message_token]
    cases run.error? <;> simp
  · rintro rfl token htoken
    have htokens : run.tokens = Token.significant (start source batch false).run.tokens :=
      (run_skipping batch 0 0 source).1
    rw [htokens] at htoken
    simpa using (List.mem_filter.mp htoken).2
  · intro lexer text
    have hresult := lexer.result_readText text
    refine ⟨_, hresult, ?_⟩
    rw [Lexer.readText, Transcript.result_summarized] at hresult
    exact log_of_result_ok rfl rfl hresult _
  · intro lexer feed
    rw [Lexer.readFeed, Transcript.result_summarized]
    constructor
    · intro tokens hresult
      exact log_of_result_ok rfl rfl hresult _
    · intro error hresult
      exact ⟨_, log_of_result_error rfl hresult _⟩

/-- A blank is skipped, and the end is asked for twice; the second time it does not matter what
there would be to read. -/
theorem log_tells_what_was_handed_out_skipping :
    let tokenizer := start (.ofText ['a', ' ', ';']) 1 true
    tokenizer.run.tokens.length < 3 ∧
      tokenizer.logged 4 =
        [.token ⟨.literal, ['a']⟩, .token ⟨.symbol, [';']⟩, .ended 2] ∧
      next { tokenizer.after 3 with source := .ofText ['b'] } =
        (⟨.ok none, []⟩, { tokenizer.after 3 with source := .ofText ['b'] }) := by
  intro tokenizer
  have hrun : tokenizer.run.tokens = [⟨.literal, ['a']⟩, ⟨.symbol, [';']⟩] ∧
      tokenizer.run.error? = none := by decide +kernel
  obtain ⟨-, hdone, ⟨hlogged, hlog, -⟩, -⟩ :=
    log_tells_what_was_handed_out (.ofText ['a', ' ', ';']) 1 true
  have hlt : tokenizer.run.tokens.length < 3 := by
    rw [hrun.1]
    decide
  refine ⟨hlt, ?_, hdone 3 hlt _⟩
  rw [hlogged, hlog, hrun.1, hrun.2]
  rfl

end Tokenizer

end SqlTokens
