import SqlTokens.Proofs.Lexing.Pending
import SqlTokens.Proofs.Tokenizer.Batches
import SqlTokens.Proofs.Tokenizer.Skipping

/-!
# Nothing is lost on the way

At any time between two requests an input lies before us in three pieces: the tokens that were read
so far, the characters that were returned to the source, and those that were never delivered. Put
together in this order they are the input (`conservation`). This counts the tokens that were skipped
on the way, whose text no one keeps; `Tokenizer.scanned` says which they were.
-/

namespace SqlTokens

/-- The token that a source stands before, as a step would hand it out. -/
def Source.token? (batch : Nat) (source : Source) : Option Token :=
  match source.step batch false with
  | .found token _ => some token
  | .failed .. | .ended _ | .skipped _ => none

/-- The token that a reply hands out. -/
def Reply.token? (reply : Reply) : Option Token :=
  match reply.result with
  | .ok token? => token?
  | .error _ => none

namespace Tokenizer

/-- The tokens that one request reads, in order: those that it skips and the one that it hands
out. -/
def scanned (tokenizer : Tokenizer) : List Token :=
  if tokenizer.isDone then []
  else
    match _h : tokenizer.source.step tokenizer.batch tokenizer.skipSundry with
    | .failed .. | .ended _ => []
    | .skipped source =>
      (tokenizer.source.token? tokenizer.batch).toList ++ scanned { tokenizer with source }
    | .found token _ => [token]
termination_by tokenizer.source.size
decreasing_by exact Source.size_of_step _h rfl

/-- The tokenizer after a number of requests. -/
def after (tokenizer : Tokenizer) : Nat → Tokenizer
  | 0 => tokenizer
  | n + 1 => (tokenizer.after n).next.2

/-- The tokens that a number of requests handed out. -/
def handedOut (tokenizer : Tokenizer) : Nat → List Token
  | 0 => []
  | n + 1 => tokenizer.handedOut n ++ (tokenizer.after n).next.1.token?.toList

/-- The tokens that a number of requests read, handed out or not. -/
def scannedBy (tokenizer : Tokenizer) : Nat → List Token
  | 0 => []
  | n + 1 => tokenizer.scannedBy n ++ (tokenizer.after n).scanned

section Scanned

variable {source rest : Source} {batch emitted : Nat} {skip : Bool} {token : Token}

theorem scanned_of_done {tokenizer : Tokenizer} (h : tokenizer.isDone = true) :
    tokenizer.scanned = [] := by
  rw [scanned, if_pos h]

theorem scanned_of_ended (h : source.step batch skip = .ended rest) :
    scanned ⟨source, batch, skip, false, emitted⟩ = [] := by
  rw [scanned, if_neg Bool.false_ne_true, h]

theorem scanned_of_skipped (h : source.step batch skip = .skipped rest) :
    scanned ⟨source, batch, skip, false, emitted⟩ =
      (source.token? batch).toList ++ scanned ⟨rest, batch, skip, false, emitted⟩ := by
  rw [scanned, if_neg Bool.false_ne_true, h]

theorem scanned_of_found (h : source.step batch skip = .found token rest) :
    scanned ⟨source, batch, skip, false, emitted⟩ = [token] := by
  rw [scanned, if_neg Bool.false_ne_true, h]

end Scanned

/-- What is true of a tokenizer that has come so far in a text without a fault: the tokens that it
has read and what is left of its source make up the text, no more than a batch waits to be read
again, and it has handed out what it was not told to skip. -/
structure Conserves (text : List Char) (batch : Nat) (skip : Bool) (tokenizer : Tokenizer)
    (scanned handedOut : List Token) : Prop where
  batch_eq : tokenizer.batch = batch
  skip_eq : tokenizer.skipSundry = skip
  stop : tokenizer.source.stop? = none
  pending : tokenizer.source.pending ≤ max 1 batch
  text_eq : Token.source scanned ++ tokenizer.source.chars = text
  handedOut_eq : handedOut = if skip then Token.significant scanned else scanned

/-- A request splits what is left into the tokens that it reads and what it leaves. -/
theorem conserves_next {batch : Nat} (skip : Bool) (emitted : Nat) {source : Source}
    (hstop : source.stop? = none) (hpending : source.pending ≤ max 1 batch) :
    Conserves source.chars batch skip (next ⟨source, batch, skip, false, emitted⟩).2
      (scanned ⟨source, batch, skip, false, emitted⟩)
      (next ⟨source, batch, skip, false, emitted⟩).1.token?.toList := by
  induction source using Source.step_induction batch with
  | failed source fault rest stop eq =>
    rw [hstop] at stop
    cases stop
  | ended source rest chars stop rest_chars rest_stop eq =>
    have hrest := Source.pending_step_le skip hpending
    rw [eq skip] at hrest
    rw [next_of_ended (eq skip), scanned_of_ended (eq skip)]
    exact ⟨rfl, rfl, rest_stop, hrest, by rw [rest_chars, chars]; rfl, by cases skip <;> rfl⟩
  | token source rest chars rest_chars rest_stop eq ih =>
    have hrest := Source.pending_step_le skip hpending
    have hfirst := Token.first_text_append_afterFirst source.chars
    rw [← rest_chars] at hfirst
    cases hskip : skip && (Token.first source.chars).isSundry with
    | true =>
      have hstep : source.step batch skip = .skipped rest := by simp [eq, hskip]
      have htoken : source.token? batch = some (Token.first source.chars) := by
        simp [Source.token?, eq]
      rw [hstep] at hrest
      obtain ⟨hbatch, hskip', hstop', hpending', htext, hhanded⟩ := ih (rest_stop.trans hstop) hrest
      rw [next_of_skipped hstep, scanned_of_skipped hstep, htoken]
      refine ⟨hbatch, hskip', hstop', hpending', ?_, ?_⟩
      · rw [Option.toList_some, List.singleton_append, Token.source_cons, List.append_assoc, htext,
          hfirst]
      · obtain ⟨rfl, hsundry⟩ := Bool.and_eq_true_iff.mp hskip
        rw [hhanded]
        simp [Token.significant, hsundry]
    | false =>
      have hstep : source.step batch skip = .found (Token.first source.chars) rest := by
        simp [eq, hskip]
      rw [hstep] at hrest
      rw [next_of_found hstep, scanned_of_found hstep]
      refine ⟨rfl, rfl, rest_stop.trans hstop, hrest, ?_, ?_⟩
      · rw [Token.source_cons, Token.source_nil, List.append_nil, hfirst]
      · cases skip with
        | false => rfl
        | true =>
          have hkept : (Token.first source.chars).isSundry = false := hskip
          simp [Reply.token?, Token.significant, hkept]

/-- What one request reads is added to what was read before. -/
theorem Conserves.next {text : List Char} {batch : Nat} {skip : Bool} {tokenizer : Tokenizer}
    {before out : List Token} (h : Conserves text batch skip tokenizer before out) :
    Conserves text batch skip tokenizer.next.2 (before ++ tokenizer.scanned)
      (out ++ tokenizer.next.1.token?.toList) := by
  cases hdone : tokenizer.isDone with
  | true =>
    rw [next_of_done hdone, scanned_of_done hdone]
    simpa [Reply.token?] using h
  | false =>
    obtain ⟨source, batch', skip', isDone, emitted⟩ := tokenizer
    obtain ⟨rfl, rfl, hstop, hpending, htext, hout⟩ := h
    simp only at hdone htext hout
    subst hdone
    obtain ⟨hbatch, hskip, hstop', hpending', htext', hout'⟩ :=
      conserves_next skip' emitted hstop hpending
    refine ⟨hbatch, hskip, hstop', hpending', ?_, ?_⟩
    · rw [Token.source_append, List.append_assoc, htext', htext]
    · rw [hout, hout']
      cases skip' <;> simp [Token.significant]

theorem conserves_after (batch : Nat) (skip : Bool) {source : Source}
    (hqueue : source.pending = 0) (hstop : source.stop? = none) (n : Nat) :
    Conserves source.chars batch skip ((start source batch skip).after n)
      ((start source batch skip).scannedBy n) ((start source batch skip).handedOut n) := by
  induction n with
  | zero =>
    refine ⟨rfl, rfl, hstop, ?_, rfl, ?_⟩
    · rw [after, start, hqueue]
      exact Nat.zero_le _
    · cases skip <;> rfl
  | succ n ih => exact ih.next

/-- At every time between two requests, the tokens that were read so far, the returned characters
and the characters never delivered are the input, in this order and without a gap; at most a batch
of characters waits to be read again; and what was handed out is what was read, less what is
skipped. If nothing is skipped, the tokens of the whole run are the input. -/
theorem conservation (source : Source) (batch : Nat) (skip : Bool) (hqueue : source.pending = 0)
    (hstop : source.stop? = none) (n : Nat) :
    let tokenizer := start source batch skip
    Token.source (tokenizer.scannedBy n) ++
        ((tokenizer.after n).source.returned ++ (tokenizer.after n).source.unread) =
        source.unread ∧
      (tokenizer.after n).source.pending ≤ max 1 batch ∧
      tokenizer.handedOut n =
        (if skip then Token.significant (tokenizer.scannedBy n) else tokenizer.scannedBy n) ∧
      (skip = false → tokenizer.run.error? = none ∧
        Token.source tokenizer.run.tokens = source.unread) := by
  have hreturned : source.returned = [] := List.length_eq_zero_iff.mp hqueue
  have hunread : source.chars = source.unread := by
    rw [Source.chars_eq_append, hreturned, List.nil_append]
  obtain ⟨-, -, -, hpending, htext, hout⟩ := conserves_after batch skip hqueue hstop n
  refine ⟨htext.trans hunread, hpending, hout, ?_⟩
  rintro rfl
  rw [start, run_of_stop?_none batch 0 source hstop, ← hunread]
  exact ⟨rfl, source_tokensOf source.chars⟩

/-- One request that skips a comment and a blank, where two characters are read at a time. -/
theorem conservation_skipping :
    let tokenizer := start (.ofText ['-', '-', '\n', ' ', 'a', ';', 'b']) 2 true
    Token.source (tokenizer.scannedBy 1) ++
        ((tokenizer.after 1).source.returned ++ (tokenizer.after 1).source.unread) =
        ['-', '-', '\n', ' ', 'a', ';', 'b'] ∧
      (tokenizer.after 1).source.pending ≤ 2 ∧
      tokenizer.handedOut 1 = Token.significant (tokenizer.scannedBy 1) := by
  obtain ⟨htext, hpending, hout, -⟩ :=
    conservation (.ofText ['-', '-', '\n', ' ', 'a', ';', 'b']) 2 true rfl rfl 1
  exact ⟨htext, hpending, hout⟩

end Tokenizer

end SqlTokens
