import SqlTokens.Proofs.Lexing.Step

/-!
# Tokens in front of a fault

A source that stops before a fault might have gone on where the fault is. Its reader does not know,
and a token that comes out of such a source must not depend on it. It does not: the end of a token
is found in the characters themselves or not at all, because a request that delivers too little
meets the fault. So a token that was found in front of a fault is the first one of every text that
goes on where the source breaks off (`first_append_of_found`).
-/

namespace SqlTokens

section Settled

variable {source rest : Source} {fault : Fault}

/-- A rule that came to its end in front of a fault has stopped there. -/
theorem Rule.stopped_of_consume {σ : Type} {rule : Rule σ} {state : σ} {batch : Nat}
    {sink sink' : Sink} (hstop : source.stop? = some fault)
    (h : rule.consume batch state sink source = (.ok sink', rest)) :
    ∃ taken left, rule.run state source.chars = .stopped taken left := by
  induction state, sink, source using consume.induct rule batch with
  | case1 state sink source fault' source' hfill =>
    rw [consume, hfill] at h
    cases h
  | case2 state sink source source' hfill =>
    obtain ⟨-, hend⟩ := Source.of_fill_nil (Nat.le_max_left 1 batch) hfill
    rw [hstop] at hend
    cases hend
  | case3 state sink source c cs source' hfill taken left hrun =>
    rw [← Source.append_chars_of_fill hfill, run_append, hrun]
    exact ⟨_, _, rfl⟩
  | case4 state sink source c cs source' hfill next hrun ih =>
    rw [consume, hfill] at h
    simp only [hrun] at h
    obtain ⟨-, -, hstop'⟩ := Source.fill_ok hfill
    obtain ⟨taken, left, hrest⟩ := ih (hstop'.trans hstop) h
    rw [← Source.append_chars_of_fill hfill, run_append, hrun]
    simp only [hrest]
    exact ⟨_, _, rfl⟩

theorem Rule.extent_append_of_consume {σ : Type} {rule : Rule σ} {state : σ} {batch : Nat}
    {sink sink' : Sink} (hstop : source.stop? = some fault)
    (h : rule.consume batch state sink source = (.ok sink', rest)) (more : List Char) :
    rule.extent state (source.chars ++ more) = rule.extent state source.chars := by
  obtain ⟨taken, left, hrun⟩ := stopped_of_consume hstop h
  rw [extent_append_of_stopped hrun, extent, hrun]

theorem Kind.reach_append_of_scan {kind : Kind} {batch : Nat} {lookahead : List Char}
    {discard : Bool} {text? : Option (List Char)} (hstop : source.stop? = some fault)
    (h : scan kind batch lookahead discard source = (.ok text?, rest)) (more : List Char) :
    kind.reach lookahead (source.chars ++ more) = kind.reach lookahead source.chars := by
  obtain ⟨sink, -, hinto⟩ := scanInto_of_scan h
  cases scan_cases kind lookahead with
  | only width scan_eq reach_eq => rw [reach_eq, reach_eq]
  | after σ rule width scan_eq reach_eq =>
    rw [scan_eq, scanAfter] at hinto
    have hstop' := (Source.stop?_undo (lookahead.drop width) source).trans hstop
    have hextent := Rule.extent_append_of_consume hstop' hinto more
    rw [Source.chars_undo, List.append_assoc] at hextent
    rw [reach_eq, reach_eq, Rule.reach, Rule.reach, hextent]

/-- Whatever might have stood where the fault is, the token would have been the same. -/
theorem Source.first_append_of_found {batch : Nat} {token : Token}
    (hstop : source.stop? = some fault) (h : source.step batch false = .found token rest)
    (more : List Char) : Token.first (source.chars ++ more) = Token.first source.chars := by
  obtain ⟨c, cs, behind, hfill, hscan, -⟩ := scan_of_found h
  obtain ⟨htake, hdrop, hstop'⟩ := fill_ok hfill
  -- A source that has fewer characters to give would have been found at its end.
  have htwo : 2 ≤ source.chars.length := by
    by_contra hshort
    have hend := stop?_of_fill_short hfill (by
      rw [htake, List.length_take, lookahead]
      omega)
    rw [hstop] at hend
    cases hend
  have hmore := Kind.ofLookahead_append htwo more
  have hreach := Kind.reach_append_of_scan (hstop'.trans hstop) hscan more
  rw [ofLookahead_of_fill hfill, htake, hdrop] at hreach
  have hextent : (Kind.ofLookahead source.chars).extent (source.chars ++ more) =
      (Kind.ofLookahead source.chars).extent source.chars := calc
    _ = (Kind.ofLookahead source.chars).reach ((source.chars ++ more).take 2)
        ((source.chars ++ more).drop 2) := (Kind.reach_eq_extent hmore).symm
    _ = (Kind.ofLookahead source.chars).reach (source.chars.take 2)
        (source.chars.drop 2 ++ more) := by
      rw [List.take_append_of_le_length htwo, List.drop_append_of_le_length htwo]
    _ = (Kind.ofLookahead source.chars).reach (source.chars.take 2) (source.chars.drop 2) :=
      hreach
    _ = _ := Kind.reach_eq_extent rfl
  rw [Token.first, hmore, hextent, Token.first]

end Settled

end SqlTokens
