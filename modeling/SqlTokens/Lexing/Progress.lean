import SqlTokens.Lexing.Scan

/-!
# Every token uses up input

A token that is opened by the characters in front of it takes at least the first of them, whatever
its kind and whether or not it is thrown away (`size_scan_lt`). This is why cutting an input into
tokens comes to an end.
-/

namespace SqlTokens

namespace Source

/-- A source that waits to deliver a character delivers it first. -/
theorem fill_of_returned {want : Nat} {source rest : Source} {c : Char} {cs chars : List Char}
    (hwant : 0 < want) (hreturned : source.returned = c :: cs)
    (h : source.fill want = (.ok chars, rest)) : ∃ more, chars = c :: more := by
  obtain ⟨want, rfl⟩ : ∃ n, want = n + 1 := ⟨want - 1, by omega⟩
  simp only [fill, hreturned, List.take_succ_cons] at h
  split at h
  · simp only [Prod.mk.injEq, Except.ok.injEq] at h
    exact ⟨_, h.1.symm⟩
  · split at h
    · simp only [Prod.mk.injEq, Except.ok.injEq] at h
      exact ⟨_, h.1.symm⟩
    · simp at h

end Source

namespace Rule

variable {σ : Type}

/-- Reading the rest of a token gives the source nothing that it did not have. -/
theorem size_consume_le {rule : Rule σ} {batch : Nat} {state : σ} {sink sink' : Sink}
    {source source' : Source}
    (h : rule.consume batch state sink source = (.ok sink', source')) :
    source'.size ≤ source.size := by
  induction state, sink, source using consume.induct rule batch with
  | case1 state sink source fault rest hf =>
    rw [consume, hf] at h
    simp at h
  | case2 state sink source rest hf =>
    rw [consume, hf] at h
    simp only [Prod.mk.injEq, Except.ok.injEq] at h
    have := Source.size_fill hf
    obtain ⟨-, rfl⟩ := h
    omega
  | case3 state sink source c cs rest hf taken left hr =>
    rw [consume, hf] at h
    simp only [hr, Prod.mk.injEq, Except.ok.injEq] at h
    have := Source.size_fill hf
    have hcut := congrArg List.length (append_of_run hr)
    obtain ⟨-, rfl⟩ := h
    simp only [List.length_append, Source.size_undo] at *
    omega
  | case4 state sink source c cs rest hf state' hr ih =>
    rw [consume, hf] at h
    simp only [hr] at h
    have := Source.size_fill hf
    have := ih h
    omega

/-- Reading on uses up the next character if it is known and belongs to the token. -/
theorem size_consume_lt {rule : Rule σ} {batch : Nat} {state : σ} {sink sink' : Sink}
    {source source' : Source} {c : Char} {cs : List Char}
    (hreturned : source.returned = c :: cs) (hbefore : rule.answer state c ≠ .stopBefore)
    (h : rule.consume batch state sink source = (.ok sink', source')) :
    source'.size < source.size := by
  rw [consume] at h
  split at h
  · simp at h
  · rename_i hf
    obtain ⟨more, hmore⟩ := Source.fill_of_returned (by omega) hreturned hf
    simp at hmore
  · rename_i d ds rest hf
    obtain ⟨more, hmore⟩ := Source.fill_of_returned (by omega) hreturned hf
    simp only [List.cons.injEq] at hmore
    obtain ⟨rfl, rfl⟩ := hmore
    have := Source.size_fill hf
    split at h
    · rename_i taken left hr
      simp only [Prod.mk.injEq, Except.ok.injEq] at h
      obtain ⟨-, rfl⟩ := h
      have hpos := List.length_pos_iff.2 (ne_nil_of_run hbefore hr)
      have hcut := congrArg List.length (append_of_run hr)
      simp only [List.length_append, List.length_cons, Source.size_undo] at *
      omega
    · have := size_consume_le h
      simp only [List.length_cons] at *
      omega

end Rule

theorem size_scanAfter_lt {σ : Type} {rule : Rule σ} {width batch : Nat} {lookahead : List Char}
    {sink sink' : Sink} {source source' : Source} (hwidth : 0 < width) (hlook : lookahead ≠ [])
    (h : scanAfter rule width batch lookahead sink source = (.ok sink', source')) :
    source'.size < source.size + lookahead.length := by
  have := Rule.size_consume_le h
  have := List.length_pos_iff.2 hlook
  simp only [Source.size_undo, List.length_drop] at *
  omega

theorem size_scanOnly_lt {width : Nat} {lookahead : List Char} {sink sink' : Sink}
    {source source' : Source} (hwidth : 0 < width) (hlook : lookahead ≠ [])
    (h : scanOnly width lookahead sink source = (.ok sink', source')) :
    source'.size < source.size + lookahead.length := by
  simp only [scanOnly, Prod.mk.injEq] at h
  obtain ⟨-, rfl⟩ := h
  have := List.length_pos_iff.2 hlook
  simp only [Source.size_undo, List.length_drop] at *
  omega

/-- A token whose kind is that of the characters in front of it uses up one of them or more. -/
theorem size_scanInto_lt {batch : Nat} {lookahead : List Char} {sink sink' : Sink}
    {source source' : Source} (hlook : lookahead ≠ [])
    (h : scanInto (.ofLookahead lookahead) batch lookahead sink source = (.ok sink', source')) :
    source'.size < source.size + lookahead.length := by
  obtain ⟨c, cs, rfl⟩ := List.exists_cons_of_ne_nil hlook
  unfold scanInto at h
  split at h
  · rename_i hkind
    split at h
    · exact size_scanOnly_lt (by decide) hlook h
    · have hblank := Kind.isBlank_of_ofLookahead hkind
      have hreturned : (source.undo (c :: cs)).returned = c :: (cs ++ source.returned) := rfl
      have := Rule.size_consume_lt hreturned (by simp [Rule.blanks, hblank]) h
      simp only [Source.size_undo] at this
      omega
  · exact size_scanAfter_lt (by decide) hlook h
  · exact size_scanAfter_lt (by decide) hlook h
  · exact size_scanAfter_lt (by decide) hlook h
  · obtain ⟨width, closer, hopening, hwidth⟩ := quoteOpening?_cons c cs
    rw [hopening] at h
    exact size_scanAfter_lt hwidth hlook h
  · exact size_scanAfter_lt (by decide) hlook h
  · refine size_scanOnly_lt ?_ hlook h
    unfold symbolWidth
    split
    · split <;> decide
    · decide

/-- A token whose kind is that of the characters in front of it leaves less of the source than there
was before these characters were read. -/
theorem size_scan_lt {batch want : Nat} {c : Char} {cs : List Char} {discard : Bool}
    {text : Option (List Char)} {start source source' : Source}
    (hfill : start.fill want = (.ok (c :: cs), source))
    (h : scan (.ofLookahead (c :: cs)) batch (c :: cs) discard source = (.ok text, source')) :
    source'.size < start.size := by
  have := Source.size_fill hfill
  simp only [scan] at h
  split at h
  · rename_i hinto
    simp only [Prod.mk.injEq] at h
    obtain ⟨-, rfl⟩ := h
    have := size_scanInto_lt (by simp) hinto
    omega
  · simp at h

end SqlTokens
