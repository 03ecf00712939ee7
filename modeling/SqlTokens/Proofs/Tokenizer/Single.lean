import SqlTokens.Proofs.Tokenizer.Streams

/-!
# One character at a time

In front of a fault it matters how many characters are read at a time. A token is found if what
follows it can be seen, and a larger batch asks for more than that; if the fault lies in it, the
token is lost although it was complete. Batches of one character ask for nothing that is not needed
to see where the token ends (`Rule.consume_one_of_stopped`), so no other size finds a token that
they do not find (`run_tokens_prefix_one`).

How far two runs have read when they come to the same token is of no account. A step goes by the
characters to come, and those are the same for both, wherever they wait.
-/

namespace SqlTokens

/-- A rule that stops among the characters to come finds its end, if they come one by one. -/
theorem Rule.consume_one_of_stopped {σ : Type} {rule : Rule σ} {state : σ} {source : Source}
    {taken left : List Char} (h : rule.run state source.chars = .stopped taken left) (sink : Sink) :
    ∃ sink' rest, rule.consume 1 state sink source = (.ok sink', rest) := by
  induction hchars : source.chars generalizing state source taken left sink with
  | nil =>
    rw [hchars] at h
    cases h
  | cons c text ih =>
    have hone : max 1 1 ≤ source.chars.length := by
      rw [hchars]
      exact Nat.le_add_left 1 _
    obtain ⟨rest, hfill, hrest, -⟩ := Source.exists_fill_ok (.inr hone)
    rw [hchars] at hfill hrest h
    have hnext : source.fill (max 1 1) = (.ok [c], rest) := hfill
    have hbehind : rest.chars = text := hrest
    rw [run] at h
    rw [consume, hnext]
    simp only [run]
    cases hanswer : rule.answer state c with
    | stopBefore => exact ⟨_, _, rfl⟩
    | stopAfter => exact ⟨_, _, rfl⟩
    | take next =>
      rw [hanswer] at h
      cases hrun : rule.run next text with
      | running last => simp [hrun] at h
      | stopped taken' left' => exact ih (hbehind ▸ hrun) _ hbehind

section Lexing

variable {kind : Kind} {batch : Nat} {lookahead : List Char} {discard : Bool}
  {source rest : Source} {text? : Option (List Char)} {fault : Fault} {token : Token}

/-- A token that is read in front of a fault is read one character at a time as well. -/
theorem scan_one_of_scan (hstop : source.stop? = some fault)
    (h : scan kind batch lookahead discard source = (.ok text?, rest)) :
    ∃ text?' rest', scan kind 1 lookahead discard source = (.ok text?', rest') := by
  obtain ⟨sink, -, hinto⟩ := scanInto_of_scan h
  cases scan_cases kind lookahead with
  | only width scan_eq =>
    rw [scan, scan_eq, scanOnly]
    exact ⟨_, _, rfl⟩
  | after σ rule width scan_eq =>
    rw [scan_eq, scanAfter] at hinto
    have hstop' := (Source.stop?_undo (lookahead.drop width) source).trans hstop
    obtain ⟨taken, left, hrun⟩ := Rule.stopped_of_consume hstop' hinto
    obtain ⟨sink', rest', hone⟩ :=
      Rule.consume_one_of_stopped hrun ((Sink.empty discard).push (lookahead.take width))
    rw [scan, scan_eq, scanAfter, hone]
    exact ⟨_, _, rfl⟩

/-- A step that finds a token finds it one character at a time as well. -/
theorem Source.step_one_of_found (h : source.step batch false = .found token rest) :
    ∃ rest', source.step 1 false = .found token rest' := by
  obtain ⟨c, cs, behind, hfill, hscan, rfl⟩ := scan_of_found h
  cases source.step_cases 1 with
  | failed fault rest' stop eq =>
    obtain ⟨text?, after, hone⟩ := scan_one_of_scan ((fill_ok hfill).2.2.trans stop) hscan
    cases (step_of_scan hfill hone).symm.trans (eq false)
  | ended rest' chars => exact absurd chars (chars_ne_nil_of_fill hfill)
  | token rest' chars rest_chars rest_stop eq => exact ⟨rest', eq false⟩

end Lexing

namespace Tokenizer

/-- What is handed out where `batch` characters are read at a time are the first of the tokens that
are handed out where they are read one by one. -/
theorem run_tokens_prefix_one (batch emitted emitted' : Nat) {source source' : Source}
    (h : source.Alike source') :
    (run ⟨source, batch, false, false, emitted⟩).tokens <+:
      (run ⟨source', 1, false, false, emitted'⟩).tokens := by
  induction source using Source.step_induction batch generalizing source' emitted emitted' with
  | failed source fault rest stop eq =>
    rw [run_of_failed (eq false)]
    exact List.nil_prefix
  | ended source rest chars stop rest_chars rest_stop eq =>
    rw [run_of_ended (eq false)]
    exact List.nil_prefix
  | token source rest chars rest_chars rest_stop eq ih =>
    obtain ⟨rest', hone⟩ := Source.step_one_of_found (eq false)
    have hresult := h.step 1 false
    rw [hone] at hresult
    have hfound := Step.eq_found_of_result hresult.symm
    have hrest := Source.source_of_isProgress (by rw [hfound]; rfl)
    rw [run_of_found (eq false), run_of_found hfound, List.cons_prefix_cons]
    refine ⟨rfl, ih _ _ ⟨?_, ?_⟩⟩
    · rw [rest_chars, hrest.1, h.chars]
    · rw [rest_stop, hrest.2, h.stop]

/-- Whatever stream it is, and wherever it fails, reading it one character at a time finds all
tokens that are found if `batch` characters are read at a time, and perhaps more of them behind. If
the stream does not fail before its end, it finds the same. -/
theorem single_batches_lose_nothing (feed : Feed) (batch : Nat) (skip : Bool) :
    (start (.ofInput feed.events) batch skip).run.tokens <+:
        (start (.ofInput feed.events) 1 skip).run.tokens ∧
      ((∃ text, feed.Holds text) →
        (start (.ofInput feed.events) batch skip).run.tokens =
          (start (.ofInput feed.events) 1 skip).run.tokens) := by
  have hskip (batch : Nat) := (run_skipping batch 0 0 (.ofInput feed.events)).1
  constructor
  · have halike : (Source.ofInput feed.events).Alike (.ofInput feed.events) := ⟨rfl, rfl⟩
    have hprefix := run_tokens_prefix_one batch 0 0 halike
    cases skip with
    | false => exact hprefix
    | true =>
      rw [start, start, hskip, hskip]
      exact hprefix.filter _
  · rintro ⟨text, hholds⟩
    have hstop := (Feed.events_of_holds hholds).2
    have htokens (batch : Nat) :=
      congrArg Transcript.tokens (run_of_stop?_none batch 0 (.ofInput feed.events) hstop)
    cases skip with
    | false => rw [start, start, htokens, htokens]
    | true => rw [start, start, hskip, hskip, htokens, htokens]

/-- A stream that fails behind a word, a blank and a letter: one character at a time, the word and
the blank are found; four at a time, the fault is met while the word is read. -/
theorem single_batches_lose_nothing_word :
    let failing := Feed.ofChunks [.data [0x61, 0x20, 0x62], .failure ⟨.timedOut, "no answer"⟩]
    let ending := Feed.ofBytes [0x61, 0x20, 0x62]
    (start (.ofInput failing.events) 4 false).run.tokens <+:
        (start (.ofInput failing.events) 1 false).run.tokens ∧
      (start (.ofInput failing.events) 4 false).run.tokens = [] ∧
      (start (.ofInput failing.events) 1 false).run.tokens =
        [⟨.literal, ['a']⟩, ⟨.whitespace, [' ']⟩] ∧
      ending.Holds ['a', ' ', 'b'] ∧
      (start (.ofInput ending.events) 4 true).run.tokens =
        (start (.ofInput ending.events) 1 true).run.tokens := by
  intro failing ending
  have hholds : ending.Holds ['a', ' ', 'b'] := ⟨by decide, by decide⟩
  refine ⟨(single_batches_lose_nothing failing 4 false).1, by decide +kernel, by decide +kernel,
    hholds, ?_⟩
  exact (single_batches_lose_nothing ending 4 true).2 ⟨_, hholds⟩

end Tokenizer

end SqlTokens
