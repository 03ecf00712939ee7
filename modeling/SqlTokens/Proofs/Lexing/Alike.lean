import SqlTokens.Proofs.Lexing.Step

/-!
# Sources that look alike

Two sources that are to deliver the same characters, and stop at the same fault behind them, cannot
be told apart by reading tokens from them. It is of no account how their characters are divided into
those that were returned and those never delivered, or what comes behind the stop.
-/

namespace SqlTokens

/-- Two sources are alike if the same characters are to come from them, and the same fault or end
behind these. -/
structure Source.Alike (source source' : Source) : Prop where
  chars : source.chars = source'.chars
  stop : source.stop? = source'.stop?

namespace Step

/-- What a step came to, without the source behind it: an error, the end, or a token, unless it was
skipped. -/
def result : Step → Except Error (Option (Option Token))
  | failed error _ => .error error
  | ended _ => .ok none
  | skipped _ => .ok (some none)
  | found token _ => .ok (some (some token))

variable {step : Step}

theorem eq_failed_of_result {error : Error} (h : step.result = .error error) :
    step = .failed error step.source := by
  cases step <;> cases h
  rfl

theorem eq_ended_of_result (h : step.result = .ok none) : step = .ended step.source := by
  cases step <;> cases h
  rfl

theorem eq_skipped_of_result (h : step.result = .ok (some none)) : step = .skipped step.source := by
  cases step <;> cases h
  rfl

theorem eq_found_of_result {token : Token} (h : step.result = .ok (some (some token))) :
    step = .found token step.source := by
  cases step <;> cases h
  rfl

theorem isProgress_congr {step' : Step} (h : step.result = step'.result) :
    step.isProgress = step'.isProgress := by
  cases step <;> cases step' <;> first | rfl | cases h

theorem result_ofScan_congr {kind : Kind}
    {outcome outcome' : Except Fault (Option (List Char)) × Source} (h : outcome.1 = outcome'.1) :
    (ofScan kind outcome).result = (ofScan kind outcome').result := by
  obtain ⟨result, source⟩ := outcome
  obtain ⟨result', source'⟩ := outcome'
  obtain rfl : result = result' := h
  match result with
  | .error _ => rfl
  | .ok none => rfl
  | .ok (some []) => rfl
  | .ok (some (_ :: _)) => rfl

end Step

theorem scan_fst (kind : Kind) (batch : Nat) (lookahead : List Char) (discard : Bool)
    (source : Source) : (scan kind batch lookahead discard source).1 =
      (scanInto kind batch lookahead (.empty discard) source).1.map Sink.text? := by
  rw [scan]
  split <;> rename_i h <;> rw [h] <;> rfl

/-- A step that comes upon a token leaves what stands behind it. -/
theorem Source.source_of_isProgress {batch : Nat} {skip : Bool} {source : Source}
    (h : (source.step batch skip).isProgress = true) :
    (source.step batch skip).source.chars = Token.afterFirst source.chars ∧
      (source.step batch skip).source.stop? = source.stop? := by
  cases source.step_cases batch with
  | failed fault rest stop eq =>
    rw [eq] at h
    cases h
  | ended rest chars stop rest_chars rest_stop eq =>
    rw [eq] at h
    cases h
  | token rest chars rest_chars rest_stop eq =>
    rw [eq]
    split
    · exact ⟨rest_chars, rest_stop⟩
    · exact ⟨rest_chars, rest_stop⟩

namespace Source.Alike

variable {source source' rest : Source}

theorem undo (h : Alike source source') (chars : List Char) :
    Alike (source.undo chars) (source'.undo chars) :=
  ⟨by rw [chars_undo, chars_undo, h.chars], h.stop⟩

/-- A request is answered in the same way, and if it is granted, the sources are alike again. -/
theorem fill {want : Nat} {result : Except Fault (List Char)} (h : Alike source source')
    (hfill : source.fill want = (result, rest)) :
    ∃ rest', source'.fill want = (result, rest') ∧
      (∀ chars, result = .ok chars → Alike rest rest') := by
  have hresult : (source'.fill want).1 = result := by
    rw [fill_fst, ← h.chars, ← h.stop, ← fill_fst, hfill]
  refine ⟨(source'.fill want).2, Prod.ext hresult rfl, ?_⟩
  rintro chars rfl
  obtain ⟨-, hchars, hstop⟩ := fill_ok hfill
  obtain ⟨-, hchars', hstop'⟩ := fill_ok (Prod.ext hresult rfl)
  exact ⟨by rw [hchars, hchars', h.chars], by rw [hstop, hstop', h.stop]⟩

theorem consume {σ : Type} {rule : Rule σ} {state : σ} (h : Alike source source') (batch : Nat)
    (sink : Sink) :
    (rule.consume batch state sink source).1 = (rule.consume batch state sink source').1 := by
  induction state, sink, source using Rule.consume.induct rule batch generalizing source' with
  | case1 state sink source fault rest hfill =>
    obtain ⟨rest', hfill', -⟩ := h.fill hfill
    rw [Rule.consume, hfill, Rule.consume, hfill']
  | case2 state sink source rest hfill =>
    obtain ⟨rest', hfill', -⟩ := h.fill hfill
    rw [Rule.consume, hfill, Rule.consume, hfill']
  | case3 state sink source c cs rest hfill taken left hrun =>
    obtain ⟨rest', hfill', -⟩ := h.fill hfill
    rw [Rule.consume, hfill, Rule.consume, hfill']
    simp only [hrun]
  | case4 state sink source c cs rest hfill next hrun ih =>
    obtain ⟨rest', hfill', hrest⟩ := h.fill hfill
    rw [Rule.consume, hfill, Rule.consume, hfill']
    simp only [hrun]
    exact ih (hrest _ rfl)

theorem scan (h : Alike source source') (kind : Kind) (batch : Nat) (lookahead : List Char)
    (discard : Bool) :
    (SqlTokens.scan kind batch lookahead discard source).1 =
      (SqlTokens.scan kind batch lookahead discard source').1 := by
  rw [scan_fst, scan_fst]
  cases scan_cases kind lookahead with
  | only width scan_eq => rw [scan_eq, scan_eq, scanOnly, scanOnly]
  | after σ rule width scan_eq =>
    rw [scan_eq, scan_eq, scanAfter, scanAfter, (h.undo _).consume]

theorem step (h : Alike source source') (batch : Nat) (skip : Bool) :
    (source.step batch skip).result = (source'.step batch skip).result := by
  cases hfill : source.fill lookahead with
  | mk result rest =>
  obtain ⟨rest', hfill', hrest⟩ := h.fill hfill
  rw [Source.step, hfill, Source.step, hfill']
  cases result with
  | error fault => rfl
  | ok chars =>
    cases chars with
    | nil => rfl
    | cons c cs => exact Step.result_ofScan_congr ((hrest _ rfl).scan _ _ _ _)

/-- Behind a token the sources are alike again. -/
theorem source_step (h : Alike source source') {batch : Nat} {skip : Bool} {step : Step}
    (hstep : source.step batch skip = step) (hprogress : step.isProgress = true) :
    Alike step.source (source'.step batch skip).source := by
  subst hstep
  have hprogress' : (source'.step batch skip).isProgress = true := by
    rw [← Step.isProgress_congr (h.step batch skip), hprogress]
  obtain ⟨hchars, hstop⟩ := source_of_isProgress hprogress
  obtain ⟨hchars', hstop'⟩ := source_of_isProgress hprogress'
  exact ⟨by rw [hchars, hchars', h.chars], by rw [hstop, hstop', h.stop]⟩

end Source.Alike

end SqlTokens
