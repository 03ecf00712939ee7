import SqlTokens.Lexing.Progress
import SqlTokens.Error

/-!
# One step of cutting an input

A step looks at two characters, which settle the kind of the next token, and reads that token. The
outcome says what the source was found to hold and where it stands afterwards. A step that finds or
skips a token leaves less of the source (`size_of_step`).
-/

namespace SqlTokens

/-- What a step came to, and the source behind it. -/
inductive Step where
  /-- The input could not be read, or a rule misbehaved. -/
  | failed (error : Error) (source : Source)
  /-- The input had ended. -/
  | ended (source : Source)
  /-- There was a token, and it was thrown away. -/
  | skipped (source : Source)
  /-- There was a token. -/
  | found (token : Token) (source : Source)
  deriving DecidableEq, Repr

namespace Step

/-- The source behind a step. -/
def source : Step → Source
  | failed _ source => source
  | ended source => source
  | skipped source => source
  | found _ source => source

/-- Whether the step came upon a token. -/
def isProgress : Step → Bool
  | failed .. | ended _ => false
  | skipped _ | found .. => true

/-- The outcome of reading a token of a given kind. A rule that takes no character at all would be
asked again for ever, so an empty token counts as an error. -/
def ofScan (kind : Kind) : Except Fault (Option (List Char)) × Source → Step
  | (.error fault, source) => failed (.io fault) source
  | (.ok none, source) => skipped source
  | (.ok (some []), source) =>
    failed (.internal (kind.name ++ " scanner consumed no input")) source
  | (.ok (some (c :: cs)), source) => found ⟨kind, c :: cs⟩ source

end Step

namespace Source

/-- The number of characters that are looked at to settle the kind of a token. -/
def lookahead : Nat := 2

/-- Read the token that a source stands before, `batch` characters at a time. -/
def step (batch : Nat) (skipSundry : Bool) (source : Source) : Step :=
  match source.fill lookahead with
  | (.error fault, source) => .failed (.io fault) source
  | (.ok [], source) => .ended source
  | (.ok (c :: cs), source) =>
    .ofScan (.ofLookahead (c :: cs))
      (scan (.ofLookahead (c :: cs)) batch (c :: cs)
        (skipSundry && (Kind.ofLookahead (c :: cs)).isSundry) source)

/-- A step that comes upon a token leaves less of the source. -/
theorem size_of_step {batch : Nat} {skipSundry : Bool} {source : Source} {step : Step}
    (h : source.step batch skipSundry = step) (hprogress : step.isProgress) :
    step.source.size < source.size := by
  subst h
  rw [Source.step] at hprogress ⊢
  split at hprogress
  · simp [Step.isProgress] at hprogress
  · simp [Step.isProgress] at hprogress
  · rename_i c cs rest hfill
    generalize hscan : scan (.ofLookahead (c :: cs)) batch (c :: cs)
      (skipSundry && (Kind.ofLookahead (c :: cs)).isSundry) rest = outcome at hprogress ⊢
    obtain ⟨result, source'⟩ := outcome
    match result with
    | .error _ => simp [Step.ofScan, Step.isProgress] at hprogress
    | .ok none => exact size_scan_lt hfill hscan
    | .ok (some []) => exact size_scan_lt hfill hscan
    | .ok (some (_ :: _)) => exact size_scan_lt hfill hscan

end Source

end SqlTokens
