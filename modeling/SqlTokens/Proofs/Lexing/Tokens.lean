import Mathlib.Data.List.Infix
import SqlTokens.Proofs.Lexing.Extent

/-!
# The tokens of a text

`tokensOf` takes one token after the other off the front of a text. Each of them is not empty, so
this ends, and their texts joined are the text again (`source_tokensOf`).

A token that ends inside a text does not change if the text goes on (`first_append_of_lt`): where it
ends was seen from the characters up to the one behind it. So a text can be cut where its last token
ends, as far as one more character can tell (`tokensOf_append`).
-/

namespace SqlTokens

namespace Kind

/-- The characters that a token of a kind starts with, where they are the same for all of them. -/
def opener? : Kind → Option (List Char)
  | .lineComment => some ['-', '-']
  | .blockComment => some ['/', '*']
  | .squareString => some ['[']
  | .whitespace | .quotedString | .literal | .symbol => none

/-- A kind that has one opener is settled only by this opener. -/
theorem eq_append_of_ofLookahead {kind : Kind} {text opener : List Char}
    (h : ofLookahead text = kind) (hopener : kind.opener? = some opener) :
    ∃ rest, text = opener ++ rest := by
  subst h
  match text with
  | [] => cases hopener
  | c :: rest =>
    simp only [ofLookahead, ofOpening] at hopener
    repeat' split at hopener
    all_goals cases hopener
    · rename_i hminus hnext
      obtain ⟨tail, rfl⟩ := List.head?_eq_some_iff.mp hnext
      exact ⟨tail, by rw [hminus]; rfl⟩
    · rename_i hslash hnext
      obtain ⟨tail, rfl⟩ := List.head?_eq_some_iff.mp hnext
      exact ⟨tail, by rw [hslash]; rfl⟩
    · rename_i hbracket
      exact ⟨rest, by rw [hbracket]; rfl⟩

/-- The kind of a token is settled by two characters. -/
theorem ofLookahead_append {text : List Char} (h : 2 ≤ text.length) (more : List Char) :
    ofLookahead (text ++ more) = ofLookahead text := by
  match text with
  | [] => simp at h
  | [_] => simp at h
  | _ :: _ :: _ => rfl

theorem ofLookahead_take (text : List Char) : ofLookahead (text.take 2) = ofLookahead text := by
  match text with
  | [] => rfl
  | [_] => rfl
  | _ :: _ :: _ => rfl

end Kind

namespace Token

theorem first_text_prefix_self (text : List Char) : (first text).text <+: text :=
  Kind.extent_prefix_self _ _

/-- Where there is a text, there is a token. -/
theorem first_text_ne_nil (c : Char) (text : List Char) : (first (c :: text)).text ≠ [] := by
  simp only [first]
  cases hkind : Kind.ofLookahead (c :: text) with
  | whitespace =>
    have hblank := Kind.isBlank_of_ofLookahead hkind
    simp [Kind.extent, hblank]
  | lineComment =>
    simp only [Kind.extent, Extent.throughLineEnd]
    split <;> exact List.cons_ne_nil _ _
  | blockComment => exact List.cons_ne_nil _ _
  | literal => exact List.cons_ne_nil _ _
  | squareString => exact List.cons_ne_nil _ _
  | quotedString =>
    simp only [Kind.extent]
    split <;> simp_all
  | symbol =>
    simp only [Kind.extent]
    split <;> simp_all
    split <;> simp

theorem length_first_text_pos (c : Char) (text : List Char) :
    0 < (first (c :: text)).text.length :=
  List.length_pos_iff.mpr (first_text_ne_nil c text)

theorem first_append_of_lt {text : List Char} (h : (first text).text.length < text.length)
    (more : List Char) : first (text ++ more) = first text := by
  have htwo : 2 ≤ text.length := by
    cases text with
    | nil => cases h
    | cons c text =>
      have := length_first_text_pos c text
      omega
  have hkind := Kind.ofLookahead_append htwo more
  have hextent := Kind.extent_append_of_lt (Kind.ofLookahead text) htwo h more
  rw [first, hkind, hextent]
  rfl

/-- What is left of a text behind its first token. -/
def afterFirst (text : List Char) : List Char :=
  text.drop (first text).text.length

theorem first_text_append_afterFirst (text : List Char) :
    (first text).text ++ afterFirst text = text :=
  (List.prefix_append_drop (first_text_prefix_self text)).symm

theorem afterFirst_append {text more : List Char} (h : first (text ++ more) = first text) :
    afterFirst (text ++ more) = afterFirst text ++ more := by
  rw [afterFirst, h, afterFirst]
  exact List.drop_append_of_le_length (first_text_prefix_self text).length_le

end Token

open Token

theorem tokensOf_nil : tokensOf [] = [] := by
  rw [tokensOf]

theorem tokensOf_cons (c : Char) (text : List Char) :
    tokensOf (c :: text) = first (c :: text) :: tokensOf (afterFirst (c :: text)) := by
  have hpos := length_first_text_pos c text
  rw [tokensOf, afterFirst]
  obtain ⟨n, hn⟩ := Nat.exists_eq_succ_of_ne_zero (Nat.ne_of_gt hpos)
  simp only [hn, Nat.succ_eq_add_one, Nat.add_sub_cancel, List.drop_succ_cons]

/-- What holds of the end of a text, and of a text if it holds behind its first token, holds of
every text. -/
theorem token_induction {motive : List Char → Prop} (nil : motive [])
    (cons : ∀ c text, motive (afterFirst (c :: text)) → motive (c :: text)) (text : List Char) :
    motive text := by
  induction h : text.length using Nat.strongRecOn generalizing text with
  | ind n ih =>
    cases text with
    | nil => exact nil
    | cons c text =>
      have hpos := length_first_text_pos c text
      have hlt : (afterFirst (c :: text)).length < n := by
        rw [afterFirst, List.length_drop, h]
        rw [List.length_cons] at h
        omega
      exact cons c text (ih _ hlt _ rfl)

/-- Nothing is lost or moved when a text is cut into tokens. -/
theorem source_tokensOf (text : List Char) : source (tokensOf text) = text := by
  induction text using token_induction with
  | nil => rw [tokensOf_nil, source_nil]
  | cons c text ih => rw [tokensOf_cons, source_cons, ih, first_text_append_afterFirst]

/-- If one more character leaves the tokens of a text alone, then so does everything that starts
with this character. -/
theorem tokensOf_append {before : List Char} {c : Char}
    (h : tokensOf before <+: tokensOf (before ++ [c])) (more : List Char) :
    tokensOf (before ++ c :: more) = tokensOf before ++ tokensOf (c :: more) := by
  induction before using token_induction with
  | nil => rw [tokensOf_nil, List.nil_append, List.nil_append]
  | cons a before ih =>
    rw [List.cons_append, tokensOf_cons, tokensOf_cons, ← List.cons_append,
      List.cons_prefix_cons] at h
    obtain ⟨hfirst, hrest⟩ := h
    have hlt : (first (a :: before ++ [c])).text.length < (a :: before ++ [c]).length := by
      rw [← hfirst, List.length_append]
      exact Nat.lt_succ_of_le (first_text_prefix_self (a :: before)).length_le
    have hmore : first (a :: before ++ c :: more) = first (a :: before) := by
      rw [hfirst, ← first_append_of_lt hlt more, List.append_assoc, List.singleton_append]
    rw [afterFirst_append hfirst.symm] at hrest
    rw [List.cons_append, tokensOf_cons, ← List.cons_append, hmore, afterFirst_append hmore,
      ih hrest, tokensOf_cons a, List.cons_append]

end SqlTokens
