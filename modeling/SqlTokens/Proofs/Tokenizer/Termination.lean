import SqlTokens.Proofs.Tokenizer.Answers

/-!
# Every request comes to its end

A request goes through a loop, and a tokenizer that skips tokens may go through it many times before
it answers. `Serves` and `Runs` say what such a loop does, pass by pass, and they count the tokens
that are read on the way. Nothing in them makes the loop stop. That it stops, and with what answer,
is `exists_serves` and `exists_runs`; that it goes on in no other way, `Serves.next_eq` and
`Runs.run_eq`.

Every token that is read takes a character at least off those to come (`length_chars_of_step`), so a
run reads no more tokens than there are characters (`Serves.scans_le`, `Runs.scans_le`).
-/

namespace SqlTokens

namespace Source

/-- The number of tokens that a step sets out to read: one, unless there is nothing to look at. -/
def scans (source : Source) : Nat :=
  match source.fill lookahead with
  | (.ok (_ :: _), _) => 1
  | (.ok [], _) | (.error _, _) => 0

theorem scans_le_one (source : Source) : source.scans ≤ 1 := by
  unfold scans
  split <;> decide

/-- Who sets out to read a token has looked at a character. -/
theorem scans_le_length (source : Source) : source.scans ≤ source.chars.length := by
  unfold scans
  split
  · next hfill => exact List.length_pos_iff.mpr (chars_ne_nil_of_fill hfill)
  · exact Nat.zero_le _
  · exact Nat.zero_le _

/-- A step that comes upon a token leaves fewer characters to come. -/
theorem length_chars_of_step {batch : Nat} {skip : Bool} {source : Source} {step : Step}
    (h : source.step batch skip = step) (hprogress : step.isProgress) :
    step.source.chars.length < source.chars.length := by
  subst h
  cases source.step_cases batch with
  | failed fault rest stop eq =>
    rw [eq] at hprogress
    cases hprogress
  | ended rest chars stop rest_chars rest_stop eq =>
    rw [eq] at hprogress
    cases hprogress
  | token rest chars rest_chars rest_stop eq =>
    have hsource : (source.step batch skip).source = rest := by
      rw [eq]
      split <;> rfl
    have happend := congrArg List.length (Token.first_text_append_afterFirst source.chars)
    have hpos := List.length_pos_iff.mpr (first_text_chars_ne_nil chars)
    rw [hsource, rest_chars]
    rw [List.length_append] at happend
    omega

end Source

namespace Tokenizer

/-- How a request is served, and how many tokens are read for it. -/
inductive Serves : Nat → Tokenizer → Reply → Tokenizer → Prop where
  | done {tokenizer : Tokenizer} (h : tokenizer.isDone = true) :
      Serves 0 tokenizer ⟨.ok none, []⟩ tokenizer
  | failed {tokenizer : Tokenizer} {error : Error} {rest : Source}
      (going : tokenizer.isDone = false)
      (step : tokenizer.source.step tokenizer.batch tokenizer.skipSundry = .failed error rest) :
      Serves tokenizer.source.scans tokenizer ⟨.error error, []⟩ (tokenizer.finish rest)
  | ended {tokenizer : Tokenizer} {rest : Source} (going : tokenizer.isDone = false)
      (step : tokenizer.source.step tokenizer.batch tokenizer.skipSundry = .ended rest) :
      Serves tokenizer.source.scans tokenizer ⟨.ok none, [.ended tokenizer.emitted]⟩
        (tokenizer.finish rest)
  | found {tokenizer : Tokenizer} {token : Token} {rest : Source}
      (going : tokenizer.isDone = false)
      (step : tokenizer.source.step tokenizer.batch tokenizer.skipSundry = .found token rest) :
      Serves tokenizer.source.scans tokenizer ⟨.ok (some token), [.token token]⟩
        { tokenizer with source := rest, emitted := tokenizer.emitted + 1 }
  | skipped {tokenizer tokenizer' : Tokenizer} {rest : Source} {scans : Nat} {reply : Reply}
      (going : tokenizer.isDone = false)
      (step : tokenizer.source.step tokenizer.batch tokenizer.skipSundry = .skipped rest)
      (later : Serves scans { tokenizer with source := rest } reply tokenizer') :
      Serves (tokenizer.source.scans + scans) tokenizer reply tokenizer'

/-- How a whole run goes from request to request, and how many tokens are read in it. -/
inductive Runs : Nat → Tokenizer → Transcript → Prop where
  | failed {tokenizer tokenizer' : Tokenizer} {scans : Nat} {error : Error}
      {log : List Log.Record} (serves : Serves scans tokenizer ⟨.error error, log⟩ tokenizer') :
      Runs scans tokenizer ⟨[], some error, log⟩
  | ended {tokenizer tokenizer' : Tokenizer} {scans : Nat} {log : List Log.Record}
      (serves : Serves scans tokenizer ⟨.ok none, log⟩ tokenizer') :
      Runs scans tokenizer ⟨[], none, log⟩
  | token {tokenizer tokenizer' : Tokenizer} {scans scans' : Nat} {token : Token}
      {log : List Log.Record} {later : Transcript}
      (serves : Serves scans tokenizer ⟨.ok (some token), log⟩ tokenizer')
      (runs : Runs scans' tokenizer' later) :
      Runs (scans + scans') tokenizer
        ⟨token :: later.tokens, later.error?, log ++ later.log⟩

section Requests

variable {tokenizer tokenizer' : Tokenizer} {scans : Nat} {reply : Reply}

/-- Every request is served. -/
theorem exists_serves (tokenizer : Tokenizer) :
    ∃ scans, Serves scans tokenizer tokenizer.next.1 tokenizer.next.2 := by
  induction tokenizer using next.induct with
  | case1 tokenizer hdone =>
    rw [next, if_pos hdone]
    exact ⟨_, .done hdone⟩
  | case2 tokenizer hdone error rest hstep =>
    rw [next, if_neg hdone, hstep]
    exact ⟨_, .failed (Bool.eq_false_iff.mpr hdone) hstep⟩
  | case3 tokenizer hdone rest hstep =>
    rw [next, if_neg hdone, hstep]
    exact ⟨_, .ended (Bool.eq_false_iff.mpr hdone) hstep⟩
  | case4 tokenizer hdone rest hstep ih =>
    obtain ⟨scans, hlater⟩ := ih
    rw [next, if_neg hdone, hstep]
    exact ⟨_, .skipped (Bool.eq_false_iff.mpr hdone) hstep hlater⟩
  | case5 tokenizer hdone token rest hstep =>
    rw [next, if_neg hdone, hstep]
    exact ⟨_, .found (Bool.eq_false_iff.mpr hdone) hstep⟩

theorem exists_serves_of_next (h : tokenizer.next = (reply, tokenizer')) :
    ∃ scans, Serves scans tokenizer reply tokenizer' := by
  have hserves := exists_serves tokenizer
  rwa [h] at hserves

theorem Serves.next_eq (h : Serves scans tokenizer reply tokenizer') :
    tokenizer.next = (reply, tokenizer') := by
  induction h with
  | done h => exact next_of_done h
  | failed going step => rw [next, if_neg (by simp [going]), step]
  | ended going step => rw [next, if_neg (by simp [going]), step]
  | found going step => rw [next, if_neg (by simp [going]), step]
  | skipped going step later ih =>
    rw [next, if_neg (by simp [going]), step]
    exact ih

/-- A request reads no more tokens than there are characters; and if it hands out a token, then the
characters that it leaves are enough for all tokens that it did not read. -/
theorem Serves.scans_le (h : Serves scans tokenizer reply tokenizer') :
    scans ≤ tokenizer.source.chars.length ∧ (reply.token?.isSome →
      scans + tokenizer'.source.chars.length ≤ tokenizer.source.chars.length) := by
  induction h with
  | done h => exact ⟨Nat.zero_le _, by simp [Reply.token?]⟩
  | @failed tokenizer => exact ⟨tokenizer.source.scans_le_length, by simp [Reply.token?]⟩
  | @ended tokenizer => exact ⟨tokenizer.source.scans_le_length, by simp [Reply.token?]⟩
  | @found tokenizer token rest going step =>
    have hone := tokenizer.source.scans_le_one
    have hlt : rest.chars.length < tokenizer.source.chars.length :=
      Source.length_chars_of_step step rfl
    refine ⟨tokenizer.source.scans_le_length, ?_⟩
    intro _
    show tokenizer.source.scans + rest.chars.length ≤ tokenizer.source.chars.length
    omega
  | @skipped tokenizer tokenizer' rest scans reply going step later ih =>
    have hone := tokenizer.source.scans_le_one
    have hlt : rest.chars.length < tokenizer.source.chars.length :=
      Source.length_chars_of_step step rfl
    obtain ⟨hscans, hleft⟩ : scans ≤ rest.chars.length ∧ (reply.token?.isSome →
      scans + tokenizer'.source.chars.length ≤ rest.chars.length) := ih
    refine ⟨by omega, ?_⟩
    intro htoken
    have hrest := hleft htoken
    omega

end Requests

section WholeRuns

variable {tokenizer : Tokenizer} {scans : Nat} {transcript : Transcript}

/-- Every run comes to its end. -/
theorem exists_runs (tokenizer : Tokenizer) : ∃ scans, Runs scans tokenizer tokenizer.run := by
  induction tokenizer using run.induct with
  | case1 tokenizer error log rest hnext =>
    obtain ⟨scans, hserves⟩ := exists_serves_of_next hnext
    rw [run, hnext]
    exact ⟨scans, .failed hserves⟩
  | case2 tokenizer log rest hnext =>
    obtain ⟨scans, hserves⟩ := exists_serves_of_next hnext
    rw [run, hnext]
    exact ⟨scans, .ended hserves⟩
  | case3 tokenizer token log rest hnext ih =>
    obtain ⟨scans, hserves⟩ := exists_serves_of_next hnext
    obtain ⟨scans', hruns⟩ := ih
    rw [run, hnext]
    exact ⟨scans + scans', .token hserves hruns⟩

theorem Runs.run_eq (h : Runs scans tokenizer transcript) : tokenizer.run = transcript := by
  induction h with
  | failed serves => rw [run, serves.next_eq]
  | ended serves => rw [run, serves.next_eq]
  | token serves runs ih =>
    rw [run, serves.next_eq]
    simp only [ih]

theorem Runs.scans_le (h : Runs scans tokenizer transcript) :
    scans ≤ tokenizer.source.chars.length := by
  induction h with
  | failed serves => exact serves.scans_le.1
  | ended serves => exact serves.scans_le.1
  | token serves runs ih =>
    have hleft := serves.scans_le.2 rfl
    omega

end WholeRuns

/-- What a run hands out is not empty, and what breaks it off is a fault of the input. -/
theorem run_hands_out (source : Source) (batch : Nat) (skip : Bool) (emitted : Nat) :
    (∀ token ∈ (run ⟨source, batch, skip, false, emitted⟩).tokens, token.text ≠ []) ∧
      ∀ error, (run ⟨source, batch, skip, false, emitted⟩).error? = some error →
        ∃ fault, error = .io fault := by
  induction source using Source.step_induction batch generalizing emitted with
  | failed source fault rest stop eq =>
    rw [run_of_failed (eq skip)]
    exact ⟨by simp, by simp⟩
  | ended source rest chars stop rest_chars rest_stop eq =>
    rw [run_of_ended (eq skip)]
    exact ⟨by simp, by simp⟩
  | token source rest chars rest_chars rest_stop eq ih =>
    cases hskip : skip && (Token.first source.chars).isSundry with
    | true =>
      have hstep : source.step batch skip = .skipped rest := by simp [eq, hskip]
      rw [run_of_skipped hstep]
      exact ih emitted
    | false =>
      have hstep : source.step batch skip = .found (Token.first source.chars) rest := by
        simp [eq, hskip]
      obtain ⟨htokens, herror⟩ := ih (emitted + 1)
      rw [run_of_found hstep]
      refine ⟨?_, herror⟩
      rw [List.forall_mem_cons]
      exact ⟨Source.first_text_chars_ne_nil chars, htokens⟩

/-- Wherever a source stands, a token that is read for the characters looked at takes one of the
characters to come or more, whether or not it is kept. So every request is served, and every run
comes to its end, in the one way that it can go; the tokens that are read on the way, skipped or
not, are at most as many as there are characters. No token that is handed out is empty, and nothing
else is reported than a fault of the input. -/
theorem requests_and_runs_end (source : Source) (batch : Nat) (skip : Bool) :
    let tokenizer := start source batch skip
    (∀ (here : Source) (lookahead : List Char) (behind : Source) (discard : Bool)
      (text? : Option (List Char)) (rest : Source),
      here.fill Source.lookahead = (.ok lookahead, behind) → lookahead ≠ [] →
      scan (.ofLookahead lookahead) batch lookahead discard behind = (.ok text?, rest) →
      ∃ text, text ≠ [] ∧ here.chars = text ++ rest.chars ∧
        text? = if discard then none else some text) ∧
    (∀ n, (∃ scans, Serves scans (tokenizer.after n) (tokenizer.after n).next.1
        (tokenizer.after n).next.2) ∧
      ∀ scans reply tokenizer', Serves scans (tokenizer.after n) reply tokenizer' →
        (tokenizer.after n).next = (reply, tokenizer') ∧
          scans ≤ (tokenizer.after n).source.chars.length) ∧
    ((∃ scans, Runs scans tokenizer tokenizer.run) ∧
      ∀ scans transcript, Runs scans tokenizer transcript →
        tokenizer.run = transcript ∧ scans ≤ source.chars.length) ∧
    (∀ token ∈ tokenizer.run.tokens, token.text ≠ []) ∧
    ∀ n message, tokenizer.answer n ≠ .error (.internal message) := by
  intro tokenizer
  obtain ⟨htokens, herror⟩ := run_hands_out source batch skip 0
  refine ⟨?_, ?_, ⟨exists_runs tokenizer, ?_⟩, htokens, ?_⟩
  · intro here lookahead behind discard text? rest hfill hne hscan
    obtain ⟨c, cs, rfl⟩ := List.exists_cons_of_ne_nil hne
    obtain ⟨htext, hrest, -⟩ := Source.first_of_scan hfill hscan
    refine ⟨(Token.first here.chars).text, ?_, ?_, htext⟩
    · exact Source.first_text_chars_ne_nil (Source.chars_ne_nil_of_fill hfill)
    · rw [hrest, Token.first_text_append_afterFirst]
  · intro n
    refine ⟨exists_serves _, ?_⟩
    intro scans reply tokenizer' hserves
    exact ⟨hserves.next_eq, hserves.scans_le.1⟩
  · intro scans transcript hruns
    exact ⟨hruns.run_eq, hruns.scans_le⟩
  · intro n message
    rw [answer_eq_of_run]
    split
    · cases hfault : tokenizer.run.error? with
      | none => simp
      | some error =>
        obtain ⟨fault, rfl⟩ := herror error hfault
        simp
    · simp

/-- One request reads a comment and a blank, skips both and answers with what comes behind them. -/
theorem requests_and_runs_end_skipping :
    let source := Source.ofText ['-', '-', '\n', ' ', 'a']
    let tokenizer := start source 0 true
    (∃ text, text ≠ [] ∧ source.chars = text ++ [' ', 'a']) ∧
      tokenizer.next.1 = ⟨.ok (some ⟨.literal, ['a']⟩), [.token ⟨.literal, ['a']⟩]⟩ ∧
      (∃ scans, Serves scans tokenizer tokenizer.next.1 tokenizer.next.2 ∧ scans ≤ 5) ∧
      (∃ scans, Runs scans tokenizer tokenizer.run ∧ scans ≤ 5) ∧
      ∀ token ∈ tokenizer.run.tokens, token.text ≠ [] := by
  intro source tokenizer
  obtain ⟨hscan, hnext, ⟨⟨scans, hruns⟩, hrun⟩, htokens, -⟩ := requests_and_runs_end source 0 true
  have hfill : source.fill Source.lookahead =
      (.ok ['-', '-'], .ofInput (Event.ofItems ['\n', ' ', 'a'])) := rfl
  have hcomment : scan (.ofLookahead ['-', '-']) 0 ['-', '-'] true
      (.ofInput (Event.ofItems ['\n', ' ', 'a'])) =
        (.ok none, .ofInput (Event.ofItems [' ', 'a'])) := by decide +kernel
  have hblank : Source.step 0 true (.ofInput (Event.ofItems [' ', 'a'])) =
      .skipped ⟨['a'], [], false⟩ := by decide +kernel
  have hfound : Source.step 0 true ⟨['a'], [], false⟩ =
      .found ⟨.literal, ['a']⟩ ⟨[], [], true⟩ := by decide +kernel
  have hserves : Serves _ tokenizer _ _ :=
    .skipped rfl (by decide +kernel : source.step 0 true = .skipped _)
      (.skipped rfl hblank (.found rfl hfound))
  obtain ⟨text, hne, happend, -⟩ :=
    hscan source ['-', '-'] _ true none _ hfill (by decide) hcomment
  obtain ⟨hanswer, hle⟩ := (hnext 0).2 _ _ _ hserves
  refine ⟨⟨text, hne, happend⟩, congrArg Prod.fst hanswer, ⟨_, ?_, hle⟩, ⟨scans, hruns, ?_⟩,
    htokens⟩
  · show Serves _ tokenizer (tokenizer.after 0).next.1 (tokenizer.after 0).next.2
    rw [hanswer]
    exact hserves
  · exact (hrun scans _ hruns).2

end Tokenizer

end SqlTokens
