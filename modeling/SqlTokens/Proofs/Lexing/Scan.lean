import SqlTokens.Lexing.Scan
import SqlTokens.Proofs.Lexing.Tokens

/-!
# Reading one token, as a function of the text

A token of any kind is read in one of two ways: it is an opener and nothing else, or an opener that
a rule goes on from (`scan_cases`). Everything else about reading a token follows from this. The
text that is taken depends on the kind, on the characters looked at and on what follows them, and
not on how it comes in (`Kind.reach`, `scan_ok`); whether it is kept makes no difference to the
source (`exists_scan_eq`).

For the kind that two characters settle, the text is the extent of the kind (`reach_eq_extent`).
-/

namespace SqlTokens

/-- What an opener of `width` characters and a rule take, where `after` follows the characters that
were looked at. -/
def Rule.reach {σ : Type} (rule : Rule σ) (width : Nat) (lookahead after : List Char) :
    List Char :=
  lookahead.take width ++ rule.extent rule.start (lookahead.drop width ++ after)

/-- Characters that were looked at behind an opener are read again. -/
theorem Rule.reach_take_drop {σ : Type} (rule : Rule σ) {width seen : Nat} (h : width ≤ seen)
    (text : List Char) :
    rule.reach width (text.take seen) (text.drop seen) =
      text.take width ++ rule.extent rule.start (text.drop width) := by
  have hrest : (text.take seen).drop width ++ text.drop seen = text.drop width := by
    obtain ⟨n, rfl⟩ := Nat.exists_eq_add_of_le h
    rw [List.drop_take, Nat.add_sub_cancel_left, ← List.drop_drop, List.take_append_drop]
  rw [reach, List.take_take, Nat.min_eq_left h, hrest]

/-- The text that is read as a token of a given kind, whether or not it starts like one, where
`after` follows the characters that were looked at. -/
def Kind.reach (kind : Kind) (lookahead after : List Char) : List Char :=
  match kind with
  | .whitespace =>
    if isSingleBlank lookahead then lookahead.take 1 else Rule.blanks.reach 0 lookahead after
  | .lineComment => Rule.toLineEnd.reach 2 lookahead after
  | .blockComment => Rule.toCommentEnd.reach 2 lookahead after
  | .squareString => (Rule.toCloser ']').reach 1 lookahead after
  | .quotedString =>
    match quoteOpening? lookahead with
    | none => []
    | some (width, closer) => (Rule.toCloser closer).reach width lookahead after
  | .literal => Rule.word.reach 1 lookahead after
  | .symbol => lookahead.take (symbolWidth lookahead)

/-- The two ways to read a token. In each of them the first character belongs to the token, unless
blanks were asked for and it is none. -/
inductive ScanCases (kind : Kind) (lookahead : List Char) : Prop where
  | only (width : Nat)
      (scan_eq : ∀ batch sink source,
        scanInto kind batch lookahead sink source = scanOnly width lookahead sink source)
      (reach_eq : ∀ after, kind.reach lookahead after = lookahead.take width)
      (pos : lookahead ≠ [] → 0 < width)
  | after (σ : Type) (rule : Rule σ) (width : Nat)
      (scan_eq : ∀ batch sink source, scanInto kind batch lookahead sink source =
        scanAfter rule width batch lookahead sink source)
      (reach_eq : ∀ after, kind.reach lookahead after = rule.reach width lookahead after)
      (pos : ∀ c cs, lookahead = c :: cs → (kind = .whitespace → Text.isBlank c = true) →
        0 < width ∨ rule.answer rule.start c ≠ .stopBefore)

theorem scan_cases (kind : Kind) (lookahead : List Char) : ScanCases kind lookahead := by
  cases kind with
  | whitespace =>
    by_cases hsingle : isSingleBlank lookahead = true
    · refine .only 1 ?_ ?_ ?_
      · intro batch sink source
        simp [scanInto, hsingle]
      · intro after
        simp [Kind.reach, hsingle]
      · intro _
        exact Nat.one_pos
    · refine .after Unit .blanks 0 ?_ ?_ ?_
      · intro batch sink source
        simp [scanInto, hsingle]
      · intro after
        simp [Kind.reach, hsingle]
      · intro c cs _ hblank
        exact .inr (by simp [Rule.blanks, hblank rfl])
  | lineComment =>
    exact .after Unit .toLineEnd 2 (fun _ _ _ => rfl) (fun _ => rfl) fun _ _ _ _ => .inl Nat.two_pos
  | blockComment =>
    exact .after Bool .toCommentEnd 2 (fun _ _ _ => rfl) (fun _ => rfl)
      fun _ _ _ _ => .inl Nat.two_pos
  | literal =>
    exact .after Unit .word 1 (fun _ _ _ => rfl) (fun _ => rfl) fun _ _ _ _ => .inl Nat.one_pos
  | symbol =>
    refine .only (symbolWidth lookahead) (fun _ _ _ => rfl) (fun _ => rfl) ?_
    intro _
    unfold symbolWidth
    split
    · split <;> decide
    · decide
  | squareString =>
    exact .after Bool (.toCloser ']') 1 (fun _ _ _ => rfl) (fun _ => rfl)
      fun _ _ _ _ => .inl Nat.one_pos
  | quotedString =>
    cases lookahead with
    | nil =>
      refine .only 0 ?_ (fun _ => rfl) ?_
      · intro batch sink source
        simp [scanInto, quoteOpening?, scanOnly, Source.undo]
      · intro hne
        exact absurd rfl hne
    | cons c cs =>
      obtain ⟨width, closer, hopening, hpos⟩ := quoteOpening?_cons c cs
      refine .after Bool (.toCloser closer) width ?_ ?_ ?_
      · intro batch sink source
        simp [scanInto, hopening]
      · intro after
        simp [Kind.reach, hopening]
      · intro _ _ _ _
        exact .inl hpos

/-- A quote is its own closer, unless it is the letter of a national string. -/
theorem quoteOpening?_of_not_national {quote : Char} {rest : List Char}
    (h : ¬(quote = 'N' ∧ rest.head? = some '\'')) :
    quoteOpening? (quote :: rest) = some (1, quote) := by
  unfold quoteOpening?
  cases rest with
  | nil => split <;> simp_all
  | cons c rest => split <;> simp_all

/-- Blanks are read to the first character that is none. If exactly two characters were looked at
and the second is none, this is known without reading on, and it comes to the same. -/
theorem Kind.reach_whitespace (text : List Char) (seen : Nat) :
    reach .whitespace (text.take seen) (text.drop seen) = text.takeWhile Text.isBlank := by
  by_cases hsingle : isSingleBlank (text.take seen) = true
  · rw [reach, if_pos hsingle]
    conv => rhs; rw [← List.take_append_drop seen text]
    unfold isSingleBlank at hsingle
    split at hsingle
    · rename_i blank next heq
      obtain ⟨hblank, hnext⟩ : Text.isBlank blank = true ∧ Text.isBlank next = false := by
        simpa using hsingle
      simp [heq, hblank, hnext]
    · cases hsingle
  · rw [reach, if_neg hsingle, Rule.reach_take_drop _ (Nat.zero_le _), Rule.extent_blanks]
    rfl

/-- The kind that the first two characters settle is read as far as its extent. -/
theorem Kind.reach_eq_extent {kind : Kind} {text : List Char} (h : ofLookahead text = kind) :
    kind.reach (text.take 2) (text.drop 2) = kind.extent text := by
  cases kind with
  | whitespace => exact reach_whitespace text 2
  | lineComment =>
    obtain ⟨rest, rfl⟩ := eq_append_of_ofLookahead h rfl
    rw [reach, Rule.reach_take_drop _ (by decide), Rule.extent_toLineEnd]
    rfl
  | blockComment =>
    rw [reach, Rule.reach_take_drop _ (by decide), Rule.extent_toCommentEnd]
    rfl
  | literal =>
    rw [reach, Rule.reach_take_drop _ (by decide), Rule.extent_word]
    cases text <;> rfl
  | symbol =>
    cases text with
    | nil => rfl
    | cons c text =>
      cases text with
      | nil => rfl
      | cons d text =>
        simp only [reach, List.take_succ_cons, List.take_zero, symbolWidth, extent]
        split <;> rfl
  | squareString =>
    rw [reach, Rule.reach_take_drop _ (by decide), Rule.extent_toCloser]
    cases text with
    | nil => exact Extent.throughOddRun_nil ']'
    | cons opener rest => rfl
  | quotedString =>
    cases text with
    | nil => rfl
    | cons quote rest =>
      by_cases hnational : quote = 'N' ∧ rest.head? = some '\''
      · obtain ⟨rfl, hrest⟩ := hnational
        obtain ⟨body, rfl⟩ := List.head?_eq_some_iff.mp hrest
        have hopening : quoteOpening? ('N' :: '\'' :: body |>.take 2) = some (2, '\'') := rfl
        simp only [reach, hopening, Rule.reach_take_drop _ (Nat.le_refl 2), Rule.extent_toCloser]
        rfl
      · have hopening : quoteOpening? ((quote :: rest).take 2) = some (1, quote) :=
          quoteOpening?_of_not_national (by simpa [List.head?_take] using hnational)
        have hone : 1 ≤ 2 := by decide
        simp only [reach, hopening, Rule.reach_take_drop _ hone, Rule.extent_toCloser]
        rw [extent_quotedString hnational]
        rfl

section Spec

variable {kind : Kind} {batch : Nat} {lookahead : List Char} {sink sink' : Sink} {discard : Bool}
  {source rest : Source} {text? : Option (List Char)} {fault : Fault}

theorem scanInto_ok (h : scanInto kind batch lookahead sink source = (.ok sink', rest)) :
    sink' = sink.push (kind.reach lookahead source.chars) ∧
      kind.reach lookahead source.chars ++ rest.chars = lookahead ++ source.chars ∧
      rest.stop? = source.stop? := by
  cases scan_cases kind lookahead with
  | only width scan_eq reach_eq =>
    rw [scan_eq, scanOnly] at h
    cases h
    rw [reach_eq, Source.chars_undo, ← List.append_assoc, List.take_append_drop]
    exact ⟨rfl, rfl, rfl⟩
  | after σ rule width scan_eq reach_eq =>
    rw [scan_eq, scanAfter] at h
    obtain ⟨hsink, hchars, hstop⟩ := Rule.consume_ok h
    rw [Source.chars_undo] at hsink hchars
    rw [reach_eq, Rule.reach]
    refine ⟨?_, ?_, hstop⟩
    · rw [hsink, Sink.push_push]
    · rw [List.append_assoc, hchars, ← List.append_assoc, List.take_append_drop]

theorem scanInto_error (h : scanInto kind batch lookahead sink source = (.error fault, rest)) :
    source.stop? = some fault := by
  cases scan_cases kind lookahead with
  | only width scan_eq =>
    rw [scan_eq, scanOnly] at h
    cases h
  | after σ rule width scan_eq =>
    rw [scan_eq, scanAfter] at h
    rw [← Source.stop?_undo (lookahead.drop width)]
    exact Rule.consume_error h

/-- What is read, and what is left of the source, is the same for every sink. -/
theorem exists_scanInto_eq (kind : Kind) (batch : Nat) (lookahead : List Char) (source : Source) :
    ∃ (result : Except Fault (List Char)) (rest : Source), ∀ sink : Sink,
      scanInto kind batch lookahead sink source = (result.map sink.push, rest) := by
  cases scan_cases kind lookahead with
  | only width scan_eq =>
    exact ⟨.ok (lookahead.take width), _, fun sink => scan_eq batch sink source⟩
  | after σ rule width scan_eq =>
    obtain ⟨result, rest, heq⟩ :=
      rule.exists_consume_eq batch rule.start (source.undo (lookahead.drop width))
    refine ⟨result.map (lookahead.take width ++ ·), rest, ?_⟩
    intro sink
    rw [scan_eq, scanAfter, heq]
    cases result <;> simp [Except.map]

/-- Throwing a token away changes nothing but that its text is not kept. -/
theorem exists_scan_eq (kind : Kind) (batch : Nat) (lookahead : List Char) (source : Source) :
    ∃ (result : Except Fault (List Char)) (rest : Source), ∀ discard : Bool,
      scan kind batch lookahead discard source =
        (result.map fun text => if discard then none else some text, rest) := by
  obtain ⟨result, rest, heq⟩ := exists_scanInto_eq kind batch lookahead source
  refine ⟨result, rest, ?_⟩
  intro discard
  rw [scan, heq]
  cases result with
  | error fault => rfl
  | ok text => cases discard <;> simp [Except.map]

/-- A scan that comes to its end has read the token into a sink. -/
theorem scanInto_of_scan (h : scan kind batch lookahead discard source = (.ok text?, rest)) :
    ∃ sink : Sink, text? = sink.text? ∧
      scanInto kind batch lookahead (.empty discard) source = (.ok sink, rest) := by
  rw [scan] at h
  split at h
  · rename_i sink rest' hinto
    cases h
    exact ⟨sink, rfl, hinto⟩
  · cases h

theorem scan_ok (h : scan kind batch lookahead discard source = (.ok text?, rest)) :
    text? = (if discard then none else some (kind.reach lookahead source.chars)) ∧
      kind.reach lookahead source.chars ++ rest.chars = lookahead ++ source.chars ∧
      rest.stop? = source.stop? := by
  obtain ⟨sink, rfl, hinto⟩ := scanInto_of_scan h
  obtain ⟨rfl, hchars, hstop⟩ := scanInto_ok hinto
  refine ⟨?_, hchars, hstop⟩
  cases discard <;> simp

theorem scan_error (h : scan kind batch lookahead discard source = (.error fault, rest)) :
    source.stop? = some fault := by
  rw [scan] at h
  split at h
  · cases h
  · rename_i fault' rest' hinto
    cases h
    exact scanInto_error hinto

end Spec

end SqlTokens
