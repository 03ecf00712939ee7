import SqlTokens.Proofs.Lexing.Scan

/-!
# Tokens of any kind

A token can be asked for by its kind, whether or not the text starts like one. A word that is read
as a quoted text has its first letter for a quote, and what is no blank is read as blanks of no
length.

What is taken is settled by the kind and by the text that lies ahead, if two characters were looked
at or as many as there are (`Kind.reach_take`). It makes no difference how many more were looked at,
how many are read at a time, and which of them had been returned to the source before.
-/

namespace SqlTokens

section Opening

variable {seen : Nat}

theorem symbolWidth_le_two (lookahead : List Char) : symbolWidth lookahead ≤ 2 := by
  unfold symbolWidth
  split
  · split <;> decide
  · decide

theorem symbolWidth_take (h : 2 ≤ seen) (text : List Char) :
    symbolWidth (text.take seen) = symbolWidth (text.take 2) := by
  obtain ⟨more, rfl⟩ := Nat.exists_eq_add_of_le' h
  match text with
  | [] | [_] | _ :: _ :: _ => rfl

theorem quoteOpening?_take (h : 2 ≤ seen) (text : List Char) :
    quoteOpening? (text.take seen) = quoteOpening? (text.take 2) := by
  obtain ⟨more, rfl⟩ := Nat.exists_eq_add_of_le' h
  match text with
  | [] | [_] => rfl
  | first :: second :: rest =>
    by_cases hnational : first = 'N' ∧ second = '\''
    · obtain ⟨rfl, rfl⟩ := hnational
      rfl
    · have hquote (tail : List Char) : quoteOpening? (first :: second :: tail) = some (1, first) :=
        quoteOpening?_of_not_national (by simpa using hnational)
      exact (hquote (rest.take more)).trans (hquote []).symm

theorem width_le_two_of_quoteOpening? {lookahead : List Char} {width : Nat} {closer : Char}
    (h : quoteOpening? lookahead = some (width, closer)) : width ≤ 2 := by
  unfold quoteOpening? at h
  split at h
  · cases h
    decide
  · cases h
    decide
  · cases h

end Opening

namespace Kind

/-- Characters that are looked at behind the second one change nothing. -/
theorem reach_take (kind : Kind) {seen : Nat} (h : 2 ≤ seen) (text : List Char) :
    kind.reach (text.take seen) (text.drop seen) = kind.reach (text.take 2) (text.drop 2) := by
  have htwo : 2 ≤ 2 := Nat.le_refl 2
  have hone : 1 ≤ 2 := Nat.le_succ 1
  cases kind with
  | whitespace => rw [reach_whitespace, reach_whitespace]
  | lineComment | blockComment =>
    simp only [reach, Rule.reach_take_drop _ h, Rule.reach_take_drop _ htwo]
  | literal | squareString =>
    simp only [reach, Rule.reach_take_drop _ (hone.trans h), Rule.reach_take_drop _ hone]
  | quotedString =>
    simp only [reach, quoteOpening?_take h]
    split
    · rfl
    · rename_i width closer hopening
      have hwidth := width_le_two_of_quoteOpening? hopening
      rw [Rule.reach_take_drop _ (hwidth.trans h), Rule.reach_take_drop _ hwidth]
  | symbol =>
    have hwidth := symbolWidth_le_two (text.take 2)
    simp only [reach, symbolWidth_take h, List.take_take, Nat.min_eq_left hwidth,
      Nat.min_eq_left (hwidth.trans h)]

/-- A character is taken if there is one and, should blanks be asked for, it is one. -/
theorem reach_ne_nil {kind : Kind} {c : Char} (h : kind = .whitespace → Text.isBlank c = true)
    (cs after : List Char) : kind.reach (c :: cs) after ≠ [] := by
  cases scan_cases kind (c :: cs) with
  | only width scan_eq reach_eq pos =>
    have hpos := pos (List.cons_ne_nil c cs)
    rw [reach_eq, Ne, List.take_eq_nil_iff]
    rintro (hzero | hcons)
    · omega
    · cases hcons
  | after σ rule width scan_eq reach_eq pos =>
    rw [reach_eq, Rule.reach, Ne, List.append_eq_nil_iff, List.take_eq_nil_iff]
    rintro ⟨hzero | hcons, hextent⟩
    · subst hzero
      rcases pos c cs rfl h with hpos | hanswer
      · exact Nat.lt_irrefl 0 hpos
      · exact Rule.extent_cons_ne_nil hanswer (cs ++ after) hextent
    · cases hcons

/-- Every kind takes a character if there is one, except that blanks take only blanks. -/
theorem reach_eq_nil_iff (kind : Kind) (c : Char) (cs after : List Char) :
    kind.reach (c :: cs) after = [] ↔ kind = .whitespace ∧ Text.isBlank c = false := by
  constructor
  · intro hnil
    by_contra hnot
    refine reach_ne_nil ?_ cs after hnil
    intro hkind
    by_contra hc
    exact hnot ⟨hkind, Bool.eq_false_iff.mpr hc⟩
  · rintro ⟨rfl, hc⟩
    have hreach := reach_whitespace (c :: cs ++ after) (c :: cs).length
    rw [List.take_left, List.drop_left] at hreach
    rw [hreach, List.cons_append, List.takeWhile_cons_of_neg (by simp [hc])]

end Kind

namespace Source

/-- A token of a given kind is read where a source stands, behind a look at `seen` characters: it
takes `taken` and leaves `rest`, and its text is there if it is kept. -/
def Reads (kind : Kind) (seen batch : Nat) (source : Source) (taken : List Char) (rest : Source) :
    Prop :=
  ∃ lookahead behind, source.fill seen = (.ok lookahead, behind) ∧
    ∀ discard, scan kind batch lookahead discard behind =
      (.ok (if discard then none else some taken), rest)

variable {kind : Kind} {seen batch : Nat} {source rest : Source} {taken : List Char}

/-- What is read is a part of the text ahead that the kind and the text settle. -/
theorem Reads.eq (h : source.Reads kind seen batch taken rest) :
    taken = kind.reach (source.chars.take seen) (source.chars.drop seen) ∧
      taken ++ rest.chars = source.chars ∧ rest.stop? = source.stop? := by
  obtain ⟨lookahead, behind, hfill, hscan⟩ := h
  obtain ⟨htake, hdrop, hstop⟩ := fill_ok hfill
  obtain ⟨htaken, hrest, hstop'⟩ := scan_ok (hscan false)
  obtain rfl := Option.some.inj htaken
  rw [htake, hdrop] at hrest ⊢
  exact ⟨rfl, hrest.trans (List.take_append_drop seen source.chars), hstop'.trans hstop⟩

theorem exists_reads (hstop : source.stop? = none) (kind : Kind) (seen batch : Nat) :
    ∃ taken rest, source.Reads kind seen batch taken rest := by
  have hgranted : source.stop? = none ∨ seen ≤ source.chars.length := .inl hstop
  obtain ⟨behind, hfill, -, hbehind⟩ := exists_fill_ok hgranted
  obtain ⟨result, rest, hscan⟩ := exists_scan_eq kind batch (source.chars.take seen) behind
  cases result with
  | error fault =>
    have hfault := scan_error (hscan false)
    rw [hbehind, hstop] at hfault
    cases hfault
  | ok taken =>
    refine ⟨taken, rest, _, behind, hfill, ?_⟩
    intro discard
    exact hscan discard

/-- Where a source without a fault still has text, a token of every kind can be read, behind a look
at one character or more. It takes a part off the front of the text and leaves what follows; and it
takes nothing only if blanks were asked for and there are none. What it takes and what it leaves is
the same for every two sources with the same text ahead, whatever the number of characters looked
at, if there are two, and of those that are read at a time. -/
theorem reads_any_kind (kind : Kind) (source : Source) (c : Char) (text : List Char)
    (hstop : source.stop? = none) (hchars : source.chars = c :: text) :
    (∀ seen batch, 1 ≤ seen → ∃ taken rest, source.Reads kind seen batch taken rest ∧
      taken ++ rest.chars = source.chars ∧ rest.stop? = none ∧
      (taken = [] ↔ kind = .whitespace ∧ Text.isBlank c = false)) ∧
    ∀ (source' : Source) (seen seen' batch batch' : Nat) (taken taken' : List Char)
      (rest rest' : Source), source'.chars = source.chars → 2 ≤ seen → 2 ≤ seen' →
      source.Reads kind seen batch taken rest → source'.Reads kind seen' batch' taken' rest' →
      taken = taken' ∧ rest.chars = rest'.chars := by
  constructor
  · intro seen batch hseen
    obtain ⟨taken, rest, hreads⟩ := exists_reads hstop kind seen batch
    obtain ⟨htaken, hrest, hstop'⟩ := hreads.eq
    refine ⟨taken, rest, hreads, hrest, hstop'.trans hstop, ?_⟩
    obtain ⟨more, rfl⟩ := Nat.exists_eq_add_of_le' hseen
    rw [htaken, hchars, List.take_succ_cons]
    exact kind.reach_eq_nil_iff c _ _
  · intro source' seen seen' batch batch' taken taken' rest rest' hsame hseen hseen' hreads hreads'
    obtain ⟨htaken, hrest, -⟩ := hreads.eq
    obtain ⟨htaken', hrest', -⟩ := hreads'.eq
    have heq : taken = taken' := by
      rw [htaken, htaken', hsame, kind.reach_take hseen, kind.reach_take hseen']
    subst heq
    exact ⟨rfl, List.append_cancel_left (hrest.trans (hsame.symm.trans hrest'.symm))⟩

/-- Letters read as a quoted text, with the first of them for a quote: all three characters in front
of the blank belong to it, one by one or with all of the text at once. -/
theorem reads_any_kind_letters :
    let source : Source := ⟨['a', 'b'], Event.ofItems ['a', ' '], false⟩
    let source' : Source := .ofText ['a', 'b', 'a', ' ']
    source.stop? = none ∧ source.chars = ['a', 'b', 'a', ' '] ∧
      (∃ taken rest, source.Reads .quotedString 1 0 taken rest ∧
        taken ++ rest.chars = ['a', 'b', 'a', ' '] ∧ taken ≠ []) ∧
      ∀ taken rest, source'.Reads .quotedString 3 64 taken rest →
        taken = ['a', 'b', 'a'] ∧ rest.chars = [' '] := by
  intro source source'
  have hstop : source.stop? = none := rfl
  have hchars : source.chars = ['a', 'b', 'a', ' '] := rfl
  obtain ⟨hreads, hsame⟩ :=
    reads_any_kind .quotedString source 'a' ['b', 'a', ' '] hstop hchars
  have hone : source.Reads .quotedString 2 1 ['a', 'b', 'a'] ⟨[' '], [], false⟩ := by
    refine ⟨['a', 'b'], .ofInput (Event.ofItems ['a', ' ']), rfl, ?_⟩
    decide +kernel
  refine ⟨hstop, hchars, ?_, ?_⟩
  · obtain ⟨taken, rest, hread, happend, -, hnil⟩ := hreads 1 0 (Nat.le_refl 1)
    refine ⟨taken, rest, hread, happend, ?_⟩
    intro htaken
    cases (hnil.mp htaken).1
  · intro taken rest hread
    obtain ⟨rfl, hrest⟩ := hsame source' 2 3 1 64 _ _ _ _ rfl (Nat.le_refl 2) (by decide) hone hread
    exact ⟨rfl, hrest.symm⟩

end Source

end SqlTokens
