import Mathlib.Data.List.Infix
import SqlTokens.Token.Boundary
import SqlTokens.Proofs.Lexing.Extent

/-!
# Whether a rule is done with a text

A rule that has taken all of a text may or may not take the character that comes next, and
`Rule.isOverBefore` says which. If it does not, the token stays what it was however the text goes on
(`extent_append_of_isOverBefore`), and if it does, the token is longer (`length_lt_extent_append`).

For each rule the answer is seen from the end of the text and from the next character, without going
through the states of the rule: a comment is over when it was closed, a quoted text when an odd
number of closers came last and no other one follows, and a blank or a word when the next character
cannot belong to it.
-/

namespace SqlTokens

namespace Rule

section Over

variable {σ : Type} {rule : Rule σ} {state last : σ} {text : List Char} {c : Char}

/-- Whether a token is over behind a text that a rule has taken as a whole, if a given character
comes next: the last character of the text closed it, or the next one does not belong to it. -/
def isOverBefore (rule : Rule σ) (state : σ) (text : List Char) (next : Char) : Bool :=
  match rule.run state text with
  | .stopped .. => true
  | .running last =>
    match rule.answer last next with
    | .stopBefore => true
    | .take _ | .stopAfter => false

theorem extent_append_of_isOverBefore (hall : rule.extent state text = text)
    (h : rule.isOverBefore state text c = true) (more : List Char) :
    rule.extent state (text ++ c :: more) = text := by
  rw [isOverBefore] at h
  cases hrun : rule.run state text with
  | stopped taken left =>
    rw [extent_append_of_stopped hrun]
    rwa [extent, hrun] at hall
  | running last =>
    rw [extent_append_of_running hrun, extent_cons]
    rw [hrun] at h
    cases hanswer : rule.answer last c with
    | stopBefore => simp
    | stopAfter => simp [hanswer] at h
    | take next => simp [hanswer] at h

theorem length_lt_extent_append (h : rule.isOverBefore state text c = false) (more : List Char) :
    text.length < (rule.extent state (text ++ c :: more)).length := by
  rw [isOverBefore] at h
  cases hrun : rule.run state text with
  | stopped taken left => simp [hrun] at h
  | running last =>
    rw [extent_append_of_running hrun, extent_cons, List.length_append]
    rw [hrun] at h
    cases hanswer : rule.answer last c with
    | stopBefore => simp [hanswer] at h
    | stopAfter => simp
    | take next => simp

theorem isOverBefore_nil : rule.isOverBefore state [] c =
    match rule.answer state c with
    | .stopBefore => true
    | .take _ | .stopAfter => false := rfl

theorem isOverBefore_nil_of_ne (h : rule.answer state c ≠ .stopBefore) :
    rule.isOverBefore state [] c = false := by
  rw [isOverBefore_nil]
  cases hanswer : rule.answer state c with
  | stopBefore => exact absurd hanswer h
  | stopAfter => rfl
  | take next => rfl

theorem isOverBefore_cons_of_take {next : σ} {d : Char} (h : rule.answer state d = .take next) :
    rule.isOverBefore state (d :: text) c = rule.isOverBefore next text c := by
  unfold isOverBefore
  rw [run, h]
  simp only
  cases rule.run next text <;> rfl

theorem isOverBefore_of_stopAfter {d : Char} (h : rule.answer state d = .stopAfter) :
    rule.isOverBefore state (d :: text) c = true := by
  rw [isOverBefore, run, h]

theorem isOverBefore_of_running (h : rule.run state text = .running last) :
    rule.isOverBefore state text c = rule.isOverBefore last [] c := by
  rw [isOverBefore, h]
  rfl

/-- A rule that is still at work has taken every character. -/
theorem run_cons_eq_running_iff {d : Char} : rule.run state (d :: text) = .running last ↔
    ∃ next, rule.answer state d = .take next ∧ rule.run next text = .running last := by
  rw [run]
  cases rule.answer state d with
  | stopBefore => simp
  | stopAfter => simp
  | take next => cases hrun : rule.run next text <;> simp [hrun]

theorem answer_of_run_singleton (h : rule.run state [c] = .running last) :
    rule.answer state c = .take last := by
  obtain ⟨next, hanswer, hrun⟩ := run_cons_eq_running_iff.mp h
  cases hrun
  exact hanswer

/-- Where a rule takes all of a text, it takes the first character and then the others, or closes
with the only one. -/
theorem answer_of_extent_cons {d : Char} (hall : rule.extent state (d :: text) = d :: text) :
    (rule.answer state d = .stopAfter ∧ text = []) ∨
      ∃ next, rule.answer state d = .take next ∧ rule.extent next text = text := by
  rw [extent_cons] at hall
  cases hanswer : rule.answer state d with
  | stopBefore => simp [hanswer] at hall
  | stopAfter =>
    rw [hanswer] at hall
    exact .inl ⟨rfl, (List.cons.inj hall).2.symm⟩
  | take next =>
    rw [hanswer] at hall
    exact .inr ⟨next, rfl, (List.cons.inj hall).2⟩

/-- A token that only a character behind it can stop leaves that character. -/
theorem left_ne_nil_of_run {taken left : List Char} (hafter : ∀ s d, rule.answer s d ≠ .stopAfter)
    (h : rule.run state text = .stopped taken left) : left ≠ [] := by
  induction state, text using run.induct rule generalizing taken left with
  | case1 state => cases h
  | case2 state c text hanswer =>
    rw [run, hanswer] at h
    cases h
    exact List.cons_ne_nil c text
  | case3 state c text hanswer => exact absurd hanswer (hafter state c)
  | case4 state c text next hanswer last hrun ih =>
    simp only [run, hanswer, hrun] at h
    cases h
  | case5 state c text next hanswer taken' left' hrun ih =>
    simp only [run, hanswer, hrun] at h
    cases h
    exact ih hrun

/-- A rule that no character of a text closes is still at work behind it. -/
theorem exists_running (hafter : ∀ s d, rule.answer s d ≠ .stopAfter)
    (hall : rule.extent state text = text) : ∃ last, rule.run state text = .running last := by
  cases hrun : rule.run state text with
  | running last => exact ⟨last, rfl⟩
  | stopped taken left =>
    rw [extent, hrun] at hall
    have hcut : taken ++ left = taken := (append_of_run hrun).trans hall.symm
    exact absurd (List.append_right_eq_self.mp hcut) (left_ne_nil_of_run hafter hrun)

/-- A rule with a single state, and no character that closes, goes by the next character alone. -/
theorem isOverBefore_of_stateless {rule : Rule Unit}
    (hafter : ∀ s d, rule.answer s d ≠ .stopAfter) (hall : rule.extent () text = text) :
    rule.isOverBefore () text c = rule.isOverBefore () [] c := by
  obtain ⟨last, hrun⟩ := exists_running hafter hall
  exact isOverBefore_of_running hrun

/-- Reading a text is reading its parts one after the other. -/
theorem run_append_of_running {more : List Char}
    (h : rule.run state (text ++ more) = .running last) :
    ∃ middle, rule.run state text = .running middle ∧ rule.run middle more = .running last := by
  rw [run_append] at h
  cases hrun : rule.run state text with
  | stopped taken left => simp [hrun] at h
  | running middle =>
    refine ⟨middle, rfl, ?_⟩
    cases hmore : rule.run middle more with
    | stopped taken left => simp [hrun, hmore] at h
    | running last' => simpa [hrun, hmore] using h

end Over

section Rules

variable {text : List Char} {c : Char}

theorem isOverBefore_blanks (hall : blanks.extent () text = text) :
    blanks.isOverBefore () text c = !Text.isBlank c := by
  have hafter (s : Unit) (d : Char) : blanks.answer s d ≠ .stopAfter := by
    simp only [blanks]
    split <;> simp
  rw [isOverBefore_of_stateless hafter hall, isOverBefore_nil]
  cases hblank : Text.isBlank c <;> simp [blanks, hblank]

theorem isOverBefore_word (hall : word.extent () text = text) :
    word.isOverBefore () text c = isLiteralEnd c := by
  have hafter (s : Unit) (d : Char) : word.answer s d ≠ .stopAfter := by
    simp only [word]
    split <;> simp
  rw [isOverBefore_of_stateless hafter hall, isOverBefore_nil]
  cases hend : isLiteralEnd c <;> simp [word, hend]

theorem isOverBefore_toLineEnd (hall : toLineEnd.extent () text = text) :
    toLineEnd.isOverBefore () text c = decide (text.getLast? = some '\n') := by
  induction text with
  | nil =>
    apply isOverBefore_nil_of_ne
    simp only [toLineEnd]
    split <;> simp
  | cons d text ih =>
    rcases answer_of_extent_cons hall with ⟨hanswer, rfl⟩ | ⟨next, hanswer, hrest⟩
    · have hd : d = '\n' := by
        by_contra hne
        simp [toLineEnd, hne] at hanswer
      rw [isOverBefore_of_stopAfter hanswer, hd]
      rfl
    · have hd : d ≠ '\n' := by
        rintro rfl
        simp [toLineEnd] at hanswer
      rw [isOverBefore_cons_of_take hanswer, ih hrest]
      cases text with
      | nil => simp [hd]
      | cons e text => rfl

/-- A star that was just read counts as if it stood in front of the text. -/
theorem isOverBefore_toCommentEnd {afterStar : Bool}
    (hall : toCommentEnd.extent afterStar text = text) :
    toCommentEnd.isOverBefore afterStar text c =
      decide (['*', '/'] <:+ if afterStar then '*' :: text else text) := by
  induction text generalizing afterStar with
  | nil =>
    have hfalse : toCommentEnd.isOverBefore afterStar [] c = false := by
      apply isOverBefore_nil_of_ne
      simp only [toCommentEnd]
      split <;> simp
    rw [hfalse]
    cases afterStar <;> decide
  | cons d text ih =>
    rcases answer_of_extent_cons hall with ⟨hanswer, rfl⟩ | ⟨next, hanswer, hrest⟩
    · have hclosed : afterStar = true ∧ d = '/' := by
        by_contra hne
        simp [toCommentEnd, hne] at hanswer
      obtain ⟨rfl, rfl⟩ := hclosed
      rw [isOverBefore_of_stopAfter hanswer]
      rfl
    · have hopen : ¬(afterStar = true ∧ d = '/') := by
        rintro ⟨rfl, rfl⟩
        simp [toCommentEnd] at hanswer
      obtain rfl : (d = '*' : Bool) = next := by simpa [toCommentEnd, hopen] using hanswer
      rw [isOverBefore_cons_of_take hanswer, ih hrest]
      -- A star in front counts only if a slash comes next, which would have closed the comment.
      have hskip : ['*', '/'] <:+ (if afterStar then '*' :: d :: text else d :: text) ↔
          ['*', '/'] <:+ d :: text := by
        cases afterStar with
        | false => rfl
        | true =>
          have hd : '/' ≠ d := fun h => hopen ⟨rfl, h.symm⟩
          simp [List.suffix_cons_iff, hd]
      have hstar : ['*', '/'] <:+ (if decide (d = '*') then '*' :: text else text) ↔
          ['*', '/'] <:+ d :: text := by
        by_cases hd : d = '*'
        · simp [hd]
        · simp [List.suffix_cons_iff, hd, Ne.symm hd]
      rw [decide_eq_decide, hskip, hstar]

theorem countAtEnd_concat (closer : Char) (text : List Char) (c : Char) :
    Token.countAtEnd closer (text ++ [c]) =
      if c = closer then Token.countAtEnd closer text + 1 else 0 := by
  rw [Token.countAtEnd, List.reverse_append, List.reverse_singleton, List.singleton_append,
    List.takeWhile_cons]
  by_cases hc : c = closer <;> simp [hc, Token.countAtEnd]

/-- The state of a rule that waits for a closer says whether an odd number of them came last. -/
theorem eq_countAtEnd_of_run_toCloser {closer : Char} {closing : Bool}
    (h : (toCloser closer).run false text = .running closing) :
    closing = decide (Token.countAtEnd closer text % 2 = 1) := by
  induction text using List.reverseRecOn generalizing closing with
  | nil =>
    cases h
    rfl
  | append_singleton text c ih =>
    obtain ⟨before, hbefore, hlast⟩ := run_append_of_running h
    obtain rfl := ih hbefore
    rw [countAtEnd_concat]
    have hanswer := answer_of_run_singleton hlast
    by_cases hc : c = closer
    · rw [if_pos hc]
      have hflip : (!decide (Token.countAtEnd closer text % 2 = 1)) =
          decide ((Token.countAtEnd closer text + 1) % 2 = 1) := by
        rw [← decide_not, decide_eq_decide]
        omega
      rw [← hflip]
      cases hodd : decide (Token.countAtEnd closer text % 2 = 1) <;>
        simp [toCloser, hc, hodd] at hanswer <;> simp [← hanswer]
    · rw [if_neg hc]
      cases hodd : decide (Token.countAtEnd closer text % 2 = 1) with
      | true => simp [toCloser, hc, hodd] at hanswer
      | false => simpa [toCloser, hc, hodd] using hanswer.symm

theorem toCloser_answer_ne_stopAfter {closer : Char} (s : Bool) (d : Char) :
    (toCloser closer).answer s d ≠ .stopAfter := by
  simp only [toCloser]
  split
  · split <;> simp
  · simp

/-- A quoted text is over if an odd number of closers came last and no other one follows. -/
theorem isOverBefore_toCloser {closer : Char} (hall : (toCloser closer).extent false text = text) :
    (toCloser closer).isOverBefore false text c =
      (decide (Token.countAtEnd closer text % 2 = 1) && decide (closer ≠ c)) := by
  obtain ⟨closing, hrun⟩ := exists_running toCloser_answer_ne_stopAfter hall
  rw [isOverBefore_of_running hrun, eq_countAtEnd_of_run_toCloser hrun, isOverBefore_nil]
  by_cases hodd : Token.countAtEnd closer text % 2 = 1
  · by_cases hc : c = closer
    · simp [toCloser, hodd, hc]
    · simp [toCloser, hodd, hc, Ne.symm hc]
  · simp [toCloser, hodd]

end Rules

end Rule

end SqlTokens
