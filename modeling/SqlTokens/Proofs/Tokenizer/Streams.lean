import SqlTokens.Proofs.Input.Feed
import SqlTokens.Proofs.Lexer
import SqlTokens.Proofs.Lexing.Alike
import SqlTokens.Proofs.Lexing.Settled
import SqlTokens.Proofs.Tokenizer.Answers

/-!
# Streams

A stream comes in chunks and may be interrupted, end or break off. Its tokens depend on the bytes in
front of the first stop and on this stop alone (`chunks_do_not_show`), since sources that are alike
run alike (`run_congr`).

Where a stream breaks off, nothing is made up for what is missing. The failure is the last thing
that is reported, and every token before it was complete, so it is a token of every stream that goes
on there (`failure_is_reported`).
-/

namespace SqlTokens

namespace Source

variable {feed feed' : Feed} {text : List Char} {fault : Fault}

theorem alike_of_bytes (hbytes : feed.bytes = feed'.bytes) (hstop : feed.stop? = feed'.stop?) :
    Alike (.ofInput feed.events) (.ofInput feed'.events) :=
  ⟨(Feed.events_congr hbytes hstop).1, (Feed.events_congr hbytes hstop).2⟩

theorem alike_of_holds (h : feed.Holds text) : Alike (.ofInput feed.events) (.ofText text) := by
  obtain ⟨hitems, hstop⟩ := Feed.events_of_holds h
  exact ⟨hitems.trans (chars_ofText text).symm, hstop.trans (stop?_ofText text).symm⟩

end Source

namespace Tokenizer

section Sources

variable {source source' : Source} {fault : Fault}

/-- Runs over sources that are alike are the same, to the last record that is logged. -/
theorem run_congr (h : source.Alike source') (batch : Nat) (skip : Bool) (emitted : Nat) :
    run ⟨source, batch, skip, false, emitted⟩ = run ⟨source', batch, skip, false, emitted⟩ := by
  -- The sources shrink in step, so the size of one of them carries the induction.
  induction hsize : source.size using Nat.strongRecOn generalizing source source' emitted with
  | ind n ih =>
    have hresult := h.step batch skip
    cases hstep : source.step batch skip with
    | failed error rest =>
      rw [hstep] at hresult
      rw [run_of_failed hstep, run_of_failed (Step.eq_failed_of_result hresult.symm)]
    | ended rest =>
      rw [hstep] at hresult
      rw [run_of_ended hstep, run_of_ended (Step.eq_ended_of_result hresult.symm)]
    | skipped rest =>
      have hlt : rest.size < n := hsize ▸ Source.size_of_step hstep rfl
      have hrest : rest.Alike (source'.step batch skip).source := h.source_step hstep rfl
      rw [hstep] at hresult
      rw [run_of_skipped hstep, run_of_skipped (Step.eq_skipped_of_result hresult.symm)]
      exact ih _ hlt hrest emitted rfl
    | found token rest =>
      have hlt : rest.size < n := hsize ▸ Source.size_of_step hstep rfl
      have hrest : rest.Alike (source'.step batch skip).source := h.source_step hstep rfl
      rw [hstep] at hresult
      rw [run_of_found hstep, run_of_found (Step.eq_found_of_result hresult.symm),
        ih _ hlt hrest (emitted + 1) rfl]

theorem answer_congr (h : source.Alike source') (batch : Nat) (skip : Bool) (n : Nat) :
    (start source batch skip).answer n = (start source' batch skip).answer n := by
  rw [answer_run, answer_run, start, start, run_congr h]

/-- Where a source stops before a fault, a run ends with this fault, and what it hands out are the
first tokens of every text that goes on where the source breaks off. -/
theorem run_of_stop?_some (batch emitted : Nat) (source : Source) (h : source.stop? = some fault) :
    (run ⟨source, batch, false, false, emitted⟩).error? = some (.io fault) ∧
      ∀ more, (run ⟨source, batch, false, false, emitted⟩).tokens <+:
        tokensOf (source.chars ++ more) := by
  induction source using Source.step_induction batch generalizing emitted with
  | failed source fault' rest stop eq =>
    obtain rfl := Option.some.inj (stop.symm.trans h)
    rw [run_of_failed (eq false)]
    exact ⟨rfl, fun more => List.nil_prefix⟩
  | ended source rest chars stop rest_chars rest_stop eq =>
    rw [h] at stop
    cases stop
  | token source rest chars rest_chars rest_stop eq ih =>
    obtain ⟨herror, htokens⟩ := ih (emitted + 1) (rest_stop.trans h)
    rw [run_of_found (eq false)]
    refine ⟨herror, ?_⟩
    intro more
    have hfirst := Source.first_append_of_found h (eq false) more
    have hrest := Token.afterFirst_append hfirst
    obtain ⟨c, text, hcons⟩ := List.exists_cons_of_ne_nil chars
    rw [hcons, List.cons_append] at hfirst hrest
    rw [hcons, List.cons_append, tokensOf_cons, hfirst, hrest, List.cons_prefix_cons]
    refine ⟨rfl, ?_⟩
    have hmore := htokens more
    rwa [rest_chars, hcons] at hmore

theorem error?_of_stop?_some (batch : Nat) (skip : Bool) (source : Source)
    (h : source.stop? = some fault) :
    (start source batch skip).run.error? = some (.io fault) := by
  have herror := (run_of_stop?_some batch 0 source h).1
  cases skip with
  | false => exact herror
  | true => exact (run_skipping batch 0 0 source).2.trans herror

end Sources

end Tokenizer

namespace Lexer

variable {feed : Feed} {text : List Char} {fault : Fault}

theorem result_readFeed_of_holds (lexer : Lexer) (h : feed.Holds text) :
    (lexer.readFeed feed).result = (lexer.readText text).result := by
  rw [readFeed, readText, Transcript.result_summarized, Transcript.result_summarized, ofFeed,
    ofText, tokenizer, tokenizer, Tokenizer.start, Tokenizer.start,
    Tokenizer.run_congr (Source.alike_of_holds h)]

theorem result_readFeed_of_failsAfter (lexer : Lexer) (h : feed.FailsAfter text fault) :
    (lexer.readFeed feed).result = .error (.io fault) := by
  have herror := Tokenizer.error?_of_stop?_some lexer.settings.batchSize.toNat
    lexer.settings.skipSundry (.ofInput feed.events) (Feed.events_of_failsAfter h).2
  rw [readFeed, Transcript.result_summarized, ofFeed, tokenizer, Transcript.result, herror]

end Lexer

namespace Tokenizer

/-- Two streams whose bytes before the first stop are the same, and which stop there in the same
way, are answered alike, request by request: the chunks do not show, nor what was interrupted, nor
what comes behind the stop. If they stop at an end and the bytes are the encoding of a text, the
answers are those for the text, and so is what comes of reading the whole stream. -/
theorem chunks_do_not_show (feed feed' : Feed) (hbytes : feed.bytes = feed'.bytes)
    (hstop : feed.stop? = feed'.stop?) :
    (∀ batch skip n, (start (.ofInput feed.events) batch skip).answer n =
        (start (.ofInput feed'.events) batch skip).answer n) ∧
      ∀ text, feed.Holds text →
        (∀ batch skip n, (start (.ofInput feed.events) batch skip).answer n =
            (start (.ofText text) batch skip).answer n) ∧
          (∀ lexer : Lexer, (lexer.readFeed feed).result = (lexer.readText text).result ∧
            ∀ n, (lexer.ofFeed feed).answer n = (lexer.ofText text).answer n) ∧
          ∀ skip, tokenizeFeed (some feed) skip = tokenize (some text) skip := by
  refine ⟨answer_congr (Source.alike_of_bytes hbytes hstop), ?_⟩
  intro text h
  have hanswer := answer_congr (Source.alike_of_holds h)
  refine ⟨hanswer, ?_, ?_⟩
  · intro lexer
    exact ⟨lexer.result_readFeed_of_holds h, hanswer _ _⟩
  · intro skip
    exact (Lexer.basic skip).result_readFeed_of_holds h

/-- A quoted text whose second character comes in two chunks with an interruption between them, and
more chunks behind the end. -/
theorem chunks_do_not_show_interrupted :
    let feed := Feed.ofChunks [.data [0x27, 0xC3], .failure ⟨.interrupted, "signal"⟩,
      .data [0xA9, 0x27], .data [], .data [0x3B]]
    let feed' := Feed.ofBytes [0x27, 0xC3, 0xA9, 0x27]
    feed.bytes = feed'.bytes ∧ feed.stop? = feed'.stop? ∧ feed.Holds ['\'', 'é', '\''] ∧
      (start (.ofInput feed.events) 1 true).answer 0 =
        (start (.ofInput feed'.events) 1 true).answer 0 ∧
      tokenizeFeed (some feed) false = .ok [⟨.quotedString, ['\'', 'é', '\'']⟩] := by
  intro feed feed'
  have hbytes : feed.bytes = feed'.bytes := by decide
  have hstop : feed.stop? = feed'.stop? := by decide
  have hholds : feed.Holds ['\'', 'é', '\''] := ⟨by decide, by decide⟩
  obtain ⟨hanswers, htext⟩ := chunks_do_not_show feed feed' hbytes hstop
  obtain ⟨-, -, htokens⟩ := htext _ hholds
  refine ⟨hbytes, hstop, hholds, hanswers 1 true 0, ?_⟩
  rw [htokens, tokenize_some]
  cbv

/-- If a stream fails behind a text, there come tokens and then this one failure, whatever the
number of characters read at a time; and the tokens are the first ones of every text that goes on
where the stream broke off. So a stream that was read without an error is one that holds a text, and
what came of it are the tokens of this text. -/
theorem failure_is_reported (feed : Feed) :
    (∀ text fault batch, feed.FailsAfter text fault → ∃ tokens : List Token,
        (∀ n, (start (.ofInput feed.events) batch false).answer n =
          if n = tokens.length then .error (.io fault) else .ok tokens[n]?) ∧
        ∀ more, ∃ continued,
          tokenize (some (text ++ more)) false = .ok (tokens ++ continued)) ∧
      ∀ (lexer : Lexer) (tokens : List Token), (lexer.readFeed feed).result = .ok tokens ↔
        ∃ text, feed.Holds text ∧ (lexer.readText text).result = .ok tokens := by
  constructor
  · intro text fault batch h
    obtain ⟨hitems, hfault⟩ := Feed.events_of_failsAfter h
    obtain ⟨herror, htokens⟩ := run_of_stop?_some batch 0 (.ofInput feed.events) hfault
    refine ⟨(start (.ofInput feed.events) batch false).run.tokens, ?_, ?_⟩
    · intro n
      rw [answer_run, Transcript.answer]
      simp only [start, herror]
    · intro more
      obtain ⟨continued, hcontinued⟩ := htokens more
      refine ⟨continued, ?_⟩
      rw [tokenize_some, start, hcontinued, ← hitems]
      rfl
  · intro lexer tokens
    constructor
    · intro hresult
      rcases feed.holds_or_failsAfter with ⟨text, h⟩ | ⟨text, fault, h⟩
      · exact ⟨text, h, by rw [← lexer.result_readFeed_of_holds h, hresult]⟩
      · rw [lexer.result_readFeed_of_failsAfter h] at hresult
        cases hresult
    · rintro ⟨text, h, hresult⟩
      rw [lexer.result_readFeed_of_holds h, hresult]

/-- A stream that breaks off inside a character behind a minus sign, of which no one knows whether
it opens a comment; and a stream that is read to its end. -/
theorem failure_is_reported_opener :
    let failing := Feed.ofChunks [.data [0x61, 0x20, 0x2D], .data [0xC3],
      .failure ⟨.timedOut, "no answer"⟩, .data [0xA9]]
    let ending := Feed.ofBytes [0x61]
    failing.FailsAfter ['a', ' ', '-'] ⟨.timedOut, "no answer"⟩ ∧
      (∃ tokens : List Token,
        (start (.ofInput failing.events) 4 false).answer tokens.length =
          .error (.io ⟨.timedOut, "no answer"⟩) ∧
        ∃ continued, tokenize (some ['a', ' ', '-', '-', 'b']) false = .ok (tokens ++ continued)) ∧
      ending.Holds ['a'] ∧
      ((Lexer.basic false).readFeed ending).result = .ok [⟨.literal, ['a']⟩] := by
  intro failing ending
  have hfails : failing.FailsAfter ['a', ' ', '-'] ⟨.timedOut, "no answer"⟩ :=
    ⟨[0xC3], by decide, .stopped ⟨1, by decide, Nat.one_pos⟩ (by decide)⟩
  have hholds : ending.Holds ['a'] := ⟨by decide, by decide⟩
  obtain ⟨tokens, hanswers, htokens⟩ := (failure_is_reported failing).1 _ _ 4 hfails
  refine ⟨hfails, ⟨tokens, ?_, htokens ['-', 'b']⟩, hholds, ?_⟩
  · rw [hanswers, if_pos rfl]
  · refine ((failure_is_reported ending).2 _ _).mpr ⟨['a'], hholds, ?_⟩
    rw [Lexer.result_readText]
    cbv

end Tokenizer

end SqlTokens
