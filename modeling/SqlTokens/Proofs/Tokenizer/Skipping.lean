import SqlTokens.Proofs.Tokenizer.Run

/-!
# Skipping in lockstep

A tokenizer that skips blanks and comments goes through the same sources as one that does not. It
hands out the same tokens but for those that it skips, and it ends in the same way, at the end of
the input or with the same error. Nothing is assumed of the input here: it may fail anywhere.
-/

namespace SqlTokens

namespace Tokenizer

/-- The number of tokens handed out so far differs between the two and is of no account. -/
theorem run_skipping (batch emitted emitted' : Nat) (source : Source) :
    (run ⟨source, batch, true, false, emitted⟩).tokens =
        Token.significant (run ⟨source, batch, false, false, emitted'⟩).tokens ∧
      (run ⟨source, batch, true, false, emitted⟩).error? =
        (run ⟨source, batch, false, false, emitted'⟩).error? := by
  induction source using Source.step_induction batch generalizing emitted emitted' with
  | failed source fault rest stop eq =>
    rw [run_of_failed (eq true), run_of_failed (eq false)]
    exact ⟨rfl, rfl⟩
  | ended source rest chars stop rest_chars rest_stop eq =>
    rw [run_of_ended (eq true), run_of_ended (eq false)]
    exact ⟨rfl, rfl⟩
  | token source rest chars rest_chars rest_stop eq ih =>
    rw [run_of_found (eq false)]
    cases hsundry : (Token.first source.chars).isSundry with
    | true =>
      have hstep : source.step batch true = .skipped rest := by simp [eq, hsundry]
      rw [run_of_skipped hstep]
      obtain ⟨htokens, herror⟩ := ih emitted (emitted' + 1)
      refine ⟨?_, herror⟩
      rw [htokens, Token.significant, Token.significant,
        List.filter_cons_of_neg (by simp [hsundry])]
    | false =>
      have hstep : source.step batch true = .found (Token.first source.chars) rest := by
        simp [eq, hsundry]
      rw [run_of_found hstep]
      obtain ⟨htokens, herror⟩ := ih (emitted + 1) (emitted' + 1)
      refine ⟨?_, herror⟩
      simp only [htokens]
      rw [Token.significant, Token.significant, List.filter_cons_of_pos (by simp [hsundry])]

/-- Skipping removes the sundry tokens from what is handed out and changes nothing else; and reading
one token, of any kind and from any source, fails and moves the source in the same way whether the
token is kept or thrown away. -/
theorem skipping_is_lockstep :
    (∀ (source : Source) (batch : Nat),
      (start source batch true).run.tokens =
          Token.significant (start source batch false).run.tokens ∧
        (start source batch true).run.error? = (start source batch false).run.error?) ∧
    ∀ (kind : Kind) (batch : Nat) (lookahead : List Char) (source : Source),
      (scan kind batch lookahead true source).2 = (scan kind batch lookahead false source).2 ∧
        (scan kind batch lookahead true source).1 =
          (scan kind batch lookahead false source).1.map fun _ => none := by
  constructor
  · intro source batch
    exact run_skipping batch 0 0 source
  · intro kind batch lookahead source
    obtain ⟨result, rest, heq⟩ := exists_scan_eq kind batch lookahead source
    rw [heq true, heq false]
    refine ⟨rfl, ?_⟩
    cases result <;> rfl

end Tokenizer

end SqlTokens
