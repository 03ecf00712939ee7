import SqlTokens.Lexing.Step
import SqlTokens.Proofs.Lexing.Scan

/-!
# What a step can do

A step has three outcomes, and `step_cases` says all there is to say about each: it meets the fault
that the source stops before, it finds the source at its end, or it takes the first token of the
characters to come. The last is the case for every batch size, so the tokens of a source are a
matter of its characters alone.

Skipping decides only whether the token is handed out. That is why each outcome is stated for both
ways to step at once.
-/

namespace SqlTokens.Source

section Scan

variable {source behind rest : Source} {c : Char} {cs : List Char} {batch : Nat} {discard : Bool}
  {text? : Option (List Char)}

/-- The characters that are looked at settle the kind of the token that a source stands before. -/
theorem ofLookahead_of_fill (h : source.fill lookahead = (.ok (c :: cs), behind)) :
    Kind.ofLookahead (c :: cs) = Kind.ofLookahead source.chars := by
  rw [(fill_ok h).1]
  exact Kind.ofLookahead_take source.chars

/-- What is read for the kind that was settled is the first token of the characters to come. -/
theorem first_of_scan (hfill : source.fill lookahead = (.ok (c :: cs), behind))
    (hscan : scan (.ofLookahead (c :: cs)) batch (c :: cs) discard behind = (.ok text?, rest)) :
    text? = (if discard then none else some (Token.first source.chars).text) ∧
      rest.chars = Token.afterFirst source.chars ∧ rest.stop? = source.stop? := by
  obtain ⟨htake, hdrop, hstop⟩ := fill_ok hfill
  obtain ⟨htext, happend, hrest⟩ := scan_ok hscan
  have hreach : (Kind.ofLookahead (c :: cs)).reach (c :: cs) behind.chars =
      (Token.first source.chars).text := by
    rw [ofLookahead_of_fill hfill, htake, hdrop]
    exact Kind.reach_eq_extent rfl
  rw [hreach] at htext happend
  refine ⟨htext, ?_, hrest.trans hstop⟩
  rw [append_chars_of_fill hfill] at happend
  exact List.append_cancel_left
    (happend.trans (Token.first_text_append_afterFirst source.chars).symm)

theorem chars_ne_nil_of_fill (h : source.fill lookahead = (.ok (c :: cs), behind)) :
    source.chars ≠ [] := by
  rw [← append_chars_of_fill h]
  exact List.cons_ne_nil _ _

theorem first_text_chars_ne_nil (h : source.chars ≠ []) :
    (Token.first source.chars).text ≠ [] := by
  obtain ⟨c, text, hcons⟩ := List.exists_cons_of_ne_nil h
  rw [hcons]
  exact Token.first_text_ne_nil c text

/-- A step that reads a token to its end finds it. -/
theorem step_of_scan (hfill : source.fill lookahead = (.ok (c :: cs), behind))
    (hscan : scan (.ofLookahead (c :: cs)) batch (c :: cs) false behind = (.ok text?, rest)) :
    source.step batch false = .found (Token.first source.chars) rest := by
  obtain ⟨htext, -, -⟩ := first_of_scan hfill hscan
  obtain rfl : text? = some (Token.first source.chars).text := htext
  have hne := first_text_chars_ne_nil (chars_ne_nil_of_fill hfill)
  obtain ⟨x, xs, htoken⟩ := List.exists_cons_of_ne_nil hne
  rw [step, hfill]
  simp only [Bool.false_and, hscan, htoken, Step.ofScan]
  rw [← htoken, ofLookahead_of_fill hfill]
  rfl

/-- A step that finds a token has read it to its end. -/
theorem scan_of_found {token : Token} (h : source.step batch false = .found token rest) :
    ∃ c cs behind, source.fill lookahead = (.ok (c :: cs), behind) ∧
      scan (.ofLookahead (c :: cs)) batch (c :: cs) false behind = (.ok (some token.text), rest) ∧
      token = Token.first source.chars := by
  have hstep := h
  rw [step] at h
  split at h
  · cases h
  · cases h
  · rename_i c cs behind hfill
    refine ⟨c, cs, behind, hfill, ?_⟩
    rw [Bool.false_and] at h
    cases hscan : scan (.ofLookahead (c :: cs)) batch (c :: cs) false behind with
    | mk result after =>
    rw [hscan] at h
    cases result with
    | error fault => cases h
    | ok text? =>
      obtain ⟨htext, -, -⟩ := first_of_scan hfill hscan
      rw [step_of_scan hfill hscan] at hstep
      obtain ⟨htoken, hrest⟩ := Step.found.inj hstep
      rw [htext, hrest, ← htoken]
      exact ⟨rfl, rfl⟩

end Scan

/-- The outcomes of a step. -/
inductive StepCases (batch : Nat) (source : Source) : Prop where
  | failed (fault : Fault) (rest : Source) (stop : source.stop? = some fault)
      (eq : ∀ skip, source.step batch skip = .failed (.io fault) rest)
  | ended (rest : Source) (chars : source.chars = []) (stop : source.stop? = none)
      (rest_chars : rest.chars = []) (rest_stop : rest.stop? = none)
      (eq : ∀ skip, source.step batch skip = .ended rest)
  | token (rest : Source) (chars : source.chars ≠ [])
      (rest_chars : rest.chars = Token.afterFirst source.chars)
      (rest_stop : rest.stop? = source.stop?)
      (eq : ∀ skip, source.step batch skip =
        if skip && (Token.first source.chars).isSundry then .skipped rest
        else .found (Token.first source.chars) rest)

theorem step_cases (batch : Nat) (source : Source) : source.StepCases batch := by
  cases hfill : source.fill lookahead with
  | mk result behind =>
  match result with
  | .error fault =>
    refine .failed fault behind (fill_error hfill) ?_
    intro skip
    rw [step, hfill]
  | .ok [] =>
    obtain ⟨hchars, hstop⟩ := of_fill_nil (by decide) hfill
    obtain ⟨-, hrest, hrest'⟩ := fill_ok hfill
    refine .ended behind hchars hstop ?_ (hrest'.trans hstop) ?_
    · rw [hrest, hchars, List.drop_nil]
    · intro skip
      rw [step, hfill]
  | .ok (c :: cs) =>
    have hkind := ofLookahead_of_fill hfill
    have hstep (skip : Bool) : source.step batch skip =
        .ofScan (.ofLookahead (c :: cs)) (scan (.ofLookahead (c :: cs)) batch (c :: cs)
          (skip && (Kind.ofLookahead (c :: cs)).isSundry) behind) := by
      rw [step, hfill]
    obtain ⟨result, rest, heq⟩ := exists_scan_eq (.ofLookahead (c :: cs)) batch (c :: cs) behind
    cases result with
    | error fault =>
      refine .failed fault rest ?_ ?_
      · rw [← (fill_ok hfill).2.2]
        exact scan_error (heq false)
      · intro skip
        rw [hstep, heq]
        rfl
    | ok text =>
      obtain ⟨htext, hchars, hstop⟩ := first_of_scan hfill (heq false)
      obtain rfl : text = (Token.first source.chars).text := by simpa using htext
      have hne := chars_ne_nil_of_fill hfill
      refine .token rest hne hchars hstop ?_
      intro skip
      have hsundry : (Kind.ofLookahead source.chars).isSundry =
          (Token.first source.chars).isSundry := rfl
      rw [hstep, heq, hkind, hsundry]
      cases hskip : skip && (Token.first source.chars).isSundry with
      | true => rfl
      | false =>
        obtain ⟨x, xs, htoken⟩ := List.exists_cons_of_ne_nil (first_text_chars_ne_nil hne)
        simp only [Except.map, Bool.false_eq_true, ↓reduceIte, htoken, Step.ofScan]
        rw [← htoken]
        rfl

end SqlTokens.Source
