import SqlTokens.Proofs.Tokenizer.Run

/-!
# Batches do not show

A tokenizer reads its source in batches, looks two characters ahead and returns what it read too
much of. None of this is seen from outside: what a run hands out are the tokens of the characters,
as `tokensOf` takes them off the text as a whole.
-/

namespace SqlTokens

namespace Tokenizer

/-- Whatever was handed out before, the tokens to come are those of the characters to come. -/
theorem run_of_stop?_none (batch emitted : Nat) (source : Source) (h : source.stop? = none) :
    run ⟨source, batch, false, false, emitted⟩ =
      ⟨tokensOf source.chars, none, (run ⟨source, batch, false, false, emitted⟩).log⟩ := by
  induction source using Source.step_induction batch generalizing emitted with
  | failed source fault rest stop eq =>
    rw [h] at stop
    cases stop
  | ended source rest chars stop rest_chars rest_stop eq =>
    rw [run_of_ended (eq false), chars, tokensOf_nil]
  | token source rest chars rest_chars rest_stop eq ih =>
    obtain ⟨c, text, hcons⟩ := List.exists_cons_of_ne_nil chars
    rw [run_of_found (eq false), ih (emitted + 1) (rest_stop.trans h), rest_chars, hcons,
      tokensOf_cons]

/-- A run over a source without a fault hands out the tokens of its characters and comes to the
end, however many characters are read at a time, and wherever the source stands between returned
characters and its input. -/
theorem run_refines_tokensOf (source : Source) (batch : Nat) (h : source.stop? = none) :
    (start source batch false).run.tokens = tokensOf source.chars ∧
      (start source batch false).run.error? = none := by
  rw [start, run_of_stop?_none batch 0 source h]
  exact ⟨rfl, rfl⟩

/-- Batches of one character, an opener among the returned characters, a closer that is doubled
across the two, and an end of the input that more could follow. -/
theorem run_refines_tokensOf_returned :
    let source : Source := ⟨['\'', 'a', '\''], Event.ofItems ['\'', '\'', '/', '*', '/', ' '] ++
      [.ending, .item 'b'], false⟩
    source.stop? = none ∧ (start source 1 false).run.tokens =
      [⟨.quotedString, ['\'', 'a', '\'', '\'', '\'']⟩, ⟨.blockComment, ['/', '*', '/', ' ']⟩] := by
  intro source
  have hstop : source.stop? = none := rfl
  refine ⟨hstop, (run_refines_tokensOf source 1 hstop).1.trans ?_⟩
  have hchars : source.chars = ['\'', 'a', '\'', '\'', '\'', '/', '*', '/', ' '] := rfl
  rw [hchars]
  cbv

end Tokenizer

end SqlTokens
