import SqlTokens.Lexer
import SqlTokens.Proofs.Tokenizer.Batches
import SqlTokens.Proofs.Tokenizer.Skipping

/-!
# Reading whole texts

A text has no faults, so reading it always succeeds, and what comes of it are the tokens of the text
(`result_readText`).
-/

namespace SqlTokens

/-- The tokens of a text are read off it, less those that the lexer was told to skip. -/
theorem Lexer.result_readText (lexer : Lexer) (text : List Char) :
    (lexer.readText text).result =
      .ok (if lexer.settings.skipSundry then Token.significant (tokensOf text)
        else tokensOf text) := by
  have hstop : (Source.ofText text).stop? = none := Source.stop?_ofText text
  have hrun := Tokenizer.run_of_stop?_none lexer.settings.batchSize.toNat 0 _ hstop
  have hskip := Tokenizer.run_skipping lexer.settings.batchSize.toNat 0 0 (.ofText text)
  rw [hrun, Source.chars_ofText] at hskip
  rw [readText, ofText, tokenizer, Tokenizer.start]
  cases lexer.settings.skipSundry with
  | true => simp [Transcript.summarized, Transcript.result, hskip]
  | false =>
    rw [hrun, Source.chars_ofText]
    rfl

theorem tokenize_some (text : List Char) : tokenize (some text) false = .ok (tokensOf text) :=
  Lexer.result_readText (.basic false) text

end SqlTokens
