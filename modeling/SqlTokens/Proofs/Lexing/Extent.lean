import SqlTokens.Lexing.Extent
import SqlTokens.Proofs.Lexing.Rule

/-!
# Rules and extents

Each rule takes what `Lexing.Extent` says of its kind of token. A rule sees one character at a time
and has to remember what it has seen: a star that may close a comment, a closer whose meaning hangs
on what comes next. An extent is said of the whole text at once. The state of `Rule.toCloser` turns
out to be the parity of the closers that were read in a row (`run_toCloser_replicate`).
-/

namespace SqlTokens

@[simp] theorem Extent.throughOddRun_nil (closer : Char) : throughOddRun closer [] = [] := by
  rw [throughOddRun]

namespace Rule

/-- A rule without a state that stops before some characters takes the longest run of others. -/
theorem extent_blanks (text : List Char) :
    blanks.extent blanks.start text = text.takeWhile Text.isBlank := by
  induction text with
  | nil => rfl
  | cons c text ih =>
    rw [extent_cons, List.takeWhile_cons]
    by_cases hc : Text.isBlank c = true
    · simp [blanks, hc, ← ih]
    · simp [blanks, hc]

theorem extent_word (text : List Char) :
    word.extent word.start text = text.takeWhile (!isLiteralEnd ·) := by
  induction text with
  | nil => rfl
  | cons c text ih =>
    rw [extent_cons, List.takeWhile_cons]
    by_cases hc : isLiteralEnd c = true
    · simp [word, hc]
    · simp [word, hc, ← ih]

theorem extent_toLineEnd (text : List Char) :
    toLineEnd.extent toLineEnd.start text = Extent.throughLineEnd text := by
  induction text with
  | nil => rfl
  | cons c text ih =>
    rw [extent_cons, Extent.throughLineEnd]
    by_cases hc : c = '\n'
    · simp [toLineEnd, hc]
    · simp [toLineEnd, hc, ← ih]

/-- The second part says what a star that was just read is good for. -/
theorem extent_toCommentEnd_both (text : List Char) :
    toCommentEnd.extent false text = Extent.throughCommentEnd text ∧
      '*' :: toCommentEnd.extent true text = Extent.throughCommentEnd ('*' :: text) := by
  induction text with
  | nil => exact ⟨rfl, rfl⟩
  | cons c text ih =>
    have hfirst : toCommentEnd.extent false (c :: text) = Extent.throughCommentEnd (c :: text) := by
      rw [extent_cons]
      by_cases hstar : c = '*'
      · subst hstar
        exact ih.2
      · simp [toCommentEnd, hstar, Extent.throughCommentEnd, ← ih.1]
    refine ⟨hfirst, ?_⟩
    by_cases hslash : c = '/'
    · subst hslash
      rfl
    · have hskip : Extent.throughCommentEnd ('*' :: c :: text) =
          '*' :: Extent.throughCommentEnd (c :: text) := by
        simp [Extent.throughCommentEnd, hslash]
      rw [hskip, ← hfirst, extent_cons, extent_cons]
      simp [toCommentEnd, hslash]

theorem extent_toCommentEnd (text : List Char) :
    toCommentEnd.extent toCommentEnd.start text = Extent.throughCommentEnd text :=
  (extent_toCommentEnd_both text).1

/-- Closers in a row flip the state one by one: what counts is whether their number is odd. -/
theorem run_toCloser_replicate (closer : Char) (closing : Bool) (n : Nat) :
    (toCloser closer).run closing (List.replicate n closer) =
      .running (closing ^^ decide (n % 2 = 1)) := by
  induction n generalizing closing with
  | zero => simp [run]
  | succ n ih =>
    have hanswer : (toCloser closer).answer closing closer = .take (!closing) := by
      cases closing <;> simp [toCloser]
    have hparity : ((!closing) ^^ decide (n % 2 = 1)) =
        (closing ^^ decide ((n + 1) % 2 = 1)) := by
      rcases Nat.mod_two_eq_zero_or_one n with hn | hn <;>
        simp [hn, Nat.add_mod]
    rw [List.replicate_succ, run, hanswer]
    simp only [ih, hparity]

/-- A closer that was read last is the end of the text unless another one follows. -/
theorem extent_toCloser_closing {closer : Char} {text : List Char}
    (htext : text.head? ≠ some closer) : (toCloser closer).extent true text = [] := by
  cases text with
  | nil => rfl
  | cons c text =>
    have hc : c ≠ closer := fun heq => htext (congrArg some heq)
    rw [extent_cons]
    simp [toCloser, hc]

/-- What stands behind the longest run of closers does not start with a closer. -/
theorem head?_dropWhile_closer (closer : Char) (text : List Char) :
    (text.dropWhile (· = closer)).head? ≠ some closer := by
  intro heq
  have hnot := List.head?_dropWhile_not (· = closer) text
  rw [heq] at hnot
  simp at hnot

theorem takeWhile_closer_eq_replicate (closer : Char) (text : List Char) :
    text.takeWhile (· = closer) =
      List.replicate (text.takeWhile (· = closer)).length closer := by
  refine List.eq_replicate_of_mem fun c hc => ?_
  simpa using List.all_eq_true.mp List.all_takeWhile c hc

/-- A run of closers is the end of the text if its length is odd, here that of a closer and the
closers behind it. -/
theorem extent_toCloser_cons (closer : Char) (text : List Char) :
    (toCloser closer).extent (toCloser closer).start (closer :: text) =
      closer :: text.takeWhile (· = closer) ++
        if (text.takeWhile (· = closer)).length % 2 = 0 then []
        else (toCloser closer).extent (toCloser closer).start (text.dropWhile (· = closer)) := by
  have hcut : closer :: text =
      (closer :: text.takeWhile (· = closer)) ++ text.dropWhile (· = closer) := by
    rw [List.cons_append, List.takeWhile_append_dropWhile]
  have hrun : (toCloser closer).run (toCloser closer).start
        (closer :: text.takeWhile (· = closer)) =
      .running (decide ((text.takeWhile (· = closer)).length % 2 = 0)) := by
    rw [takeWhile_closer_eq_replicate, ← List.replicate_succ, run_toCloser_replicate]
    simp only [toCloser, Bool.false_xor, List.length_replicate]
    congr 2
    exact propext (by omega)
  rw [hcut, extent_append_of_running hrun]
  split
  · rename_i heven
    rw [decide_eq_true heven, extent_toCloser_closing (head?_dropWhile_closer closer text)]
  · rename_i hodd
    rw [decide_eq_false hodd]
    rfl

theorem extent_toCloser (closer : Char) (text : List Char) :
    (toCloser closer).extent (toCloser closer).start text = Extent.throughOddRun closer text := by
  induction text using Extent.throughOddRun.induct closer with
  | case1 => rw [Extent.throughOddRun_nil, extent_nil]
  | case2 text more heven =>
    rw [Extent.throughOddRun, if_pos rfl, if_pos heven, extent_toCloser_cons, if_pos heven,
      List.append_nil]
  | case3 text more hodd ih =>
    rw [Extent.throughOddRun, if_pos rfl, if_neg hodd, extent_toCloser_cons, if_neg hodd, ih]
  | case4 c text hc ih =>
    rw [Extent.throughOddRun, if_neg hc, extent_cons]
    simp [toCloser, hc, ← ih]

end Rule

namespace Extent

/-- Two closers in a row stand for one in the text. -/
theorem throughOddRun_pair (closer : Char) (text : List Char) :
    throughOddRun closer (closer :: closer :: text) =
      closer :: closer :: throughOddRun closer text := by
  have hrun : (Rule.toCloser closer).run (Rule.toCloser closer).start [closer, closer] =
      .running (Rule.toCloser closer).start := Rule.run_toCloser_replicate closer false 2
  have hextent := Rule.extent_append_of_running hrun text
  rw [Rule.extent_toCloser, Rule.extent_toCloser] at hextent
  exact hextent

/-- A single closer is the end. -/
theorem throughOddRun_single {closer : Char} {text : List Char}
    (htext : text.head? ≠ some closer) : throughOddRun closer (closer :: text) = [closer] := by
  have hrun : (Rule.toCloser closer).run (Rule.toCloser closer).start [closer] = .running true :=
    Rule.run_toCloser_replicate closer false 1
  rw [← Rule.extent_toCloser]
  exact (Rule.extent_append_of_running hrun text).trans
    (congrArg ([closer] ++ ·) (Rule.extent_toCloser_closing htext))

theorem throughOddRun_of_ne {closer c : Char} (hc : c ≠ closer) (text : List Char) :
    throughOddRun closer (c :: text) = c :: throughOddRun closer text := by
  rw [throughOddRun, if_neg hc]

end Extent

namespace Kind

/-- A quote is its own closer, unless it is the letter of a national string. -/
theorem extent_quotedString {quote : Char} {rest : List Char}
    (h : ¬(quote = 'N' ∧ rest.head? = some '\'')) :
    extent .quotedString (quote :: rest) = quote :: Extent.throughOddRun quote rest := by
  unfold extent
  split <;> simp_all

/-- A token is the beginning of the text in front of which it is looked for. -/
theorem extent_prefix_self (kind : Kind) (text : List Char) : kind.extent text <+: text := by
  have hcons (c : Char) {taken rest : List Char} (h : taken <+: rest) : c :: taken <+: c :: rest :=
    (List.prefix_cons_inj c).mpr h
  have hodd (closer : Char) (rest : List Char) : Extent.throughOddRun closer rest <+: rest := by
    rw [← Rule.extent_toCloser]
    exact Rule.extent_prefix_self _ _ _
  cases kind with
  | whitespace => exact List.takeWhile_prefix _
  | lineComment =>
    rw [extent, ← Rule.extent_toLineEnd]
    exact Rule.extent_prefix_self _ _ _
  | blockComment =>
    rw [extent, ← Rule.extent_toCommentEnd]
    conv => rhs; rw [← List.take_append_drop 2 text]
    exact (List.prefix_append_right_inj _).mpr (Rule.extent_prefix_self _ _ _)
  | literal =>
    cases text with
    | nil => exact List.prefix_rfl
    | cons first rest => exact hcons first (List.takeWhile_prefix _)
  | squareString =>
    cases text with
    | nil => exact List.prefix_rfl
    | cons opener rest => exact hcons opener (hodd ']' rest)
  | quotedString =>
    match text with
    | [] => exact List.prefix_rfl
    | quote :: rest =>
      by_cases hnational : quote = 'N' ∧ rest.head? = some '\''
      · obtain ⟨rfl, hrest⟩ := hnational
        obtain ⟨body, rfl⟩ := List.head?_eq_some_iff.mp hrest
        exact hcons 'N' (hcons '\'' (hodd '\'' body))
      · rw [extent_quotedString hnational]
        exact hcons quote (hodd quote rest)
  | symbol =>
    match text with
    | [] => exact List.prefix_rfl
    | [first] => exact List.prefix_rfl
    | first :: second :: rest =>
      rw [extent]
      split
      · exact hcons first (hcons second List.nil_prefix)
      · exact hcons first List.nil_prefix

/-- An extent that leaves a part of a text has ended there, whatever stands behind the text. -/
theorem extent_append_of_lt (kind : Kind) {text : List Char} (htwo : 2 ≤ text.length)
    (h : (kind.extent text).length < text.length) (more : List Char) :
    kind.extent (text ++ more) = kind.extent text := by
  have hodd {closer : Char} {rest : List Char}
      (hlt : (Extent.throughOddRun closer rest).length < rest.length) :
      Extent.throughOddRun closer (rest ++ more) = Extent.throughOddRun closer rest := by
    rw [← Rule.extent_toCloser] at hlt
    rw [← Rule.extent_toCloser, ← Rule.extent_toCloser, Rule.extent_append_of_lt hlt]
  obtain ⟨first, second, rest, rfl⟩ : ∃ first second rest, text = first :: second :: rest := by
    match text with
    | [] => simp at htwo
    | [_] => simp at htwo
    | first :: second :: rest => exact ⟨first, second, rest, rfl⟩
  cases kind with
  | whitespace =>
    simp only [extent, ← Rule.extent_blanks] at h ⊢
    exact Rule.extent_append_of_lt h more
  | lineComment =>
    simp only [extent, ← Rule.extent_toLineEnd] at h ⊢
    exact Rule.extent_append_of_lt h more
  | blockComment =>
    simp only [extent, List.take_succ_cons, List.take_zero, List.drop_succ_cons, List.drop_zero,
      List.cons_append, List.nil_append, List.length_cons, ← Rule.extent_toCommentEnd] at h ⊢
    rw [Rule.extent_append_of_lt (by omega)]
  | literal =>
    simp only [extent, List.cons_append, List.length_cons, ← Rule.extent_word] at h ⊢
    rw [← List.cons_append, Rule.extent_append_of_lt (by simp only [List.length_cons]; omega)]
  | squareString =>
    simp only [extent, List.cons_append, List.length_cons] at h ⊢
    rw [← List.cons_append, hodd (by simp only [List.length_cons]; omega)]
  | quotedString =>
    by_cases hnational : first = 'N' ∧ second = '\''
    · obtain ⟨rfl, rfl⟩ := hnational
      simp only [extent, List.cons_append, List.length_cons] at h ⊢
      rw [hodd (by omega)]
    · rw [extent_quotedString (by simpa using hnational)] at h ⊢
      rw [List.cons_append, extent_quotedString (by simpa using hnational)]
      simp only [List.length_cons] at h
      rw [hodd (by simp only [List.length_cons]; omega)]
  | symbol => rfl

end Kind

end SqlTokens
