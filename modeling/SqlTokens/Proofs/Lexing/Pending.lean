import SqlTokens.Proofs.Lexing.Step

/-!
# How many characters wait to be read again

Whatever a step reads too much of goes back to the source. It was read in one batch, and before that
batch nothing was waiting any more, so at most a batch of characters waits behind a step
(`pending_step_le`). A token that stops at the first character of a full batch gives back as many.

The lookahead could spoil this if batches are of one character: a token of blanks gives back both
characters that were looked at. The first of them is then read again at once, because it is a blank.
-/

namespace SqlTokens

namespace Source

variable {source : Source}

@[simp] theorem pending_undo (chars : List Char) (source : Source) :
    (source.undo chars).pending = chars.length + source.pending := by
  simp [pending, undo]

theorem pending_fill (want : Nat) (source : Source) :
    (source.fill want).2.pending = source.pending - want := by
  rw [pending, returned_fill, List.length_drop, pending]

end Source

namespace Rule

variable {σ : Type} {rule : Rule σ} {state : σ} {batch : Nat} {sink : Sink} {source : Source}

/-- Where a batch empties the queue, it is the only batch that anything goes back from. -/
theorem pending_consume_le (h : source.pending ≤ max 1 batch) :
    (rule.consume batch state sink source).2.pending ≤ max 1 batch := by
  induction state, sink, source using consume.induct rule batch with
  | case1 state sink source fault rest hfill =>
    have hrest := Source.pending_fill (max 1 batch) source
    rw [hfill] at hrest
    rw [consume, hfill]
    simp only at hrest ⊢
    omega
  | case2 state sink source rest hfill =>
    have hrest := Source.pending_fill (max 1 batch) source
    rw [hfill] at hrest
    rw [consume, hfill]
    simp only at hrest ⊢
    omega
  | case3 state sink source c cs rest hfill taken left hrun =>
    have hrest := Source.pending_fill (max 1 batch) source
    have hlength := Source.length_le_of_fill hfill
    have hcut := congrArg List.length (append_of_run hrun)
    rw [hfill] at hrest
    rw [consume, hfill]
    simp only [hrun, Source.pending_undo, List.length_append] at hrest hcut ⊢
    omega
  | case4 state sink source c cs rest hfill next hrun ih =>
    have hrest := Source.pending_fill (max 1 batch) source
    rw [hfill] at hrest
    rw [consume, hfill]
    simp only [hrun] at hrest ⊢
    exact ih (by omega)

/-- One character more may wait at the start if it belongs to the token. -/
theorem pending_consume_le_of_takes {c : Char} {cs : List Char}
    (hreturned : source.returned = c :: cs) (hanswer : rule.answer state c ≠ .stopBefore)
    (h : cs.length ≤ max 1 batch) :
    (rule.consume batch state sink source).2.pending ≤ max 1 batch := by
  have hpending : source.pending = cs.length + 1 := by rw [Source.pending, hreturned]; rfl
  have hrest := Source.pending_fill (max 1 batch) source
  rw [consume]
  split
  · rename_i hfill
    rw [hfill] at hrest
    simp only at hrest ⊢
    omega
  · rename_i hfill
    rw [hfill] at hrest
    simp only at hrest ⊢
    omega
  · rename_i d ds rest hfill
    rw [hfill] at hrest
    simp only at hrest
    obtain ⟨more, hmore⟩ := Source.fill_of_returned (by omega) hreturned hfill
    obtain ⟨rfl, rfl⟩ := List.cons.inj hmore
    have hlength := Source.length_le_of_fill hfill
    split
    · rename_i taken left hrun
      have hpos := List.length_pos_iff.mpr (ne_nil_of_run hanswer hrun)
      have hcut := congrArg List.length (append_of_run hrun)
      simp only [Source.pending_undo, List.length_append] at hcut ⊢
      omega
    · exact pending_consume_le (by omega)

end Rule

theorem pending_scanInto_le {kind : Kind} {batch : Nat} {c : Char} {cs : List Char} {sink : Sink}
    {source : Source} (hkind : kind = .whitespace → Text.isBlank c = true)
    (h : source.pending + cs.length ≤ max 1 batch) :
    (scanInto kind batch (c :: cs) sink source).2.pending ≤ max 1 batch := by
  cases scan_cases kind (c :: cs) with
  | only width scan_eq reach_eq pos =>
    have hpos := pos (List.cons_ne_nil c cs)
    rw [scan_eq, scanOnly]
    simp only [Source.pending_undo, List.length_drop, List.length_cons]
    omega
  | after σ rule width scan_eq reach_eq pos =>
    rw [scan_eq, scanAfter]
    by_cases hwidth : 0 < width
    · apply Rule.pending_consume_le
      simp only [Source.pending_undo, List.length_drop, List.length_cons]
      omega
    · have hanswer := (pos c cs rfl hkind).resolve_left hwidth
      obtain rfl : width = 0 := by omega
      have hreturned : (source.undo (c :: cs)).returned = c :: (cs ++ source.returned) := rfl
      apply Rule.pending_consume_le_of_takes hreturned hanswer
      rw [List.length_append, Nat.add_comm]
      exact h

theorem scan_snd (kind : Kind) (batch : Nat) (lookahead : List Char) (discard : Bool)
    (source : Source) : (scan kind batch lookahead discard source).2 =
      (scanInto kind batch lookahead (.empty discard) source).2 := by
  rw [scan]
  split <;> rename_i h <;> rw [h]

theorem Step.source_ofScan (kind : Kind) (outcome : Except Fault (Option (List Char)) × Source) :
    (Step.ofScan kind outcome).source = outcome.2 := by
  obtain ⟨result, source⟩ := outcome
  match result with
  | .error _ => rfl
  | .ok none => rfl
  | .ok (some []) => rfl
  | .ok (some (_ :: _)) => rfl

namespace Source

/-- If at most a batch of characters waits in front of a step, then so it does behind it. -/
theorem pending_step_le {batch : Nat} {source : Source} (skip : Bool)
    (h : source.pending ≤ max 1 batch) :
    (source.step batch skip).source.pending ≤ max 1 batch := by
  have hrest := pending_fill lookahead source
  have htwo : lookahead = 2 := rfl
  rw [step]
  split
  · rename_i hfill
    rw [hfill] at hrest
    simp only [Step.source] at hrest ⊢
    omega
  · rename_i hfill
    rw [hfill] at hrest
    simp only [Step.source] at hrest ⊢
    omega
  · rename_i c cs rest hfill
    rw [hfill] at hrest
    have hlength := length_le_of_fill hfill
    rw [Step.source_ofScan, scan_snd]
    refine pending_scanInto_le (fun hkind => Kind.isBlank_of_ofLookahead hkind) ?_
    simp only [List.length_cons] at hrest hlength
    omega

end Source

end SqlTokens
