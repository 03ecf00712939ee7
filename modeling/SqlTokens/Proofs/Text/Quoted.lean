import Mathlib.Data.Char
import SqlTokens.Proofs.Text.Number
import SqlTokens.Text.Quoted

/-!
# Reading quoted texts

A character of a quoted text is read back without a look at the table that says which characters are
escaped: a backslash tells that an escape begins, and how it goes on tells where it ends
(`unescape?_escape`). So no two texts have the same quoted form, whatever stands behind it
(`quoted_append_inj`). All characters of a quoted text can be seen (`isInvisible_of_mem_quoted`),
and none of them breaks a line.
-/

namespace SqlTokens.Text

variable {c : Char} {text text' rest rest' : List Char}

/-- The character that a backslash and this letter show together. -/
def lettered? : Char → Option Char
  | '"' => some '"'
  | '\\' => some '\\'
  | 'n' => some '\n'
  | 'r' => some '\r'
  | 't' => some '\t'
  | '0' => some '\x00'
  | _ => none

/-- Read one character inside the quotes of a quoted text. There is none at the closing quote. -/
def unescape? : List Char → Option (Char × List Char)
  | '\\' :: 'u' :: '\x7b' :: rest =>
    (ofDigits? 16 (rest.takeWhile (· ≠ '\x7d'))).map fun n =>
      (Char.ofNat n, (rest.dropWhile (· ≠ '\x7d')).tail)
  | '\\' :: letter :: rest => (lettered? letter).map (·, rest)
  | c :: rest => if c = '"' then none else some (c, rest)
  | [] => none

theorem ne_brace_of_mem_hexadecimal {width n : Nat} (hc : c ∈ hexadecimal width n) :
    c ≠ '\x7d' := by
  rintro rfl
  exact absurd (isSome_digitValue?_of_mem (ofDigits?_hexadecimal width n) hc) (by decide)

theorem unescape?_number (c : Char) (rest : List Char) :
    unescape? ('\\' :: 'u' :: '\x7b' :: (hexadecimal 1 c.toNat ++ '\x7d' :: rest)) =
      some (c, rest) := by
  have hall : ∀ d ∈ hexadecimal 1 c.toNat, decide (d ≠ '\x7d') = true := by
    intro d hd
    exact decide_eq_true (ne_brace_of_mem_hexadecimal hd)
  rw [unescape?, List.takeWhile_append_of_pos hall, List.dropWhile_append_of_pos hall,
    List.takeWhile_cons_of_neg (by simp), List.dropWhile_cons_of_neg (by simp), List.append_nil,
    ofDigits?_hexadecimal, Option.map_some, Char.ofNat_toNat, List.tail_cons]

/-- What is shown of a character is read as this character, whatever follows. -/
theorem unescape?_escape (c : Char) (rest : List Char) :
    unescape? (escape c ++ rest) = some (c, rest) := by
  rw [escape]
  split
  · next h => simp [h, unescape?, lettered?]
  split
  · next h => simp [h, unescape?, lettered?]
  split
  · next h => simp [h, unescape?, lettered?]
  split
  · next h => simp [h, unescape?, lettered?]
  split
  · next h => simp [h, unescape?, lettered?]
  split
  · next h => simp [h, unescape?, lettered?]
  split
  · simpa using unescape?_number c rest
  · next hquote hbackslash _ _ _ _ _ => simp [unescape?, hquote, hbackslash]

theorem unescape?_flatMap_escape (c : Char) (text rest : List Char) :
    unescape? ((c :: text).flatMap escape ++ rest) = some (c, text.flatMap escape ++ rest) := by
  rw [List.flatMap_cons, List.append_assoc, unescape?_escape]

theorem unescape?_quote (rest : List Char) : unescape? ('"' :: rest) = none := by
  simp [unescape?]

theorem flatMap_escape_append_inj
    (h : text.flatMap escape ++ '"' :: rest = text'.flatMap escape ++ '"' :: rest') :
    text = text' ∧ rest = rest' := by
  have hread := congrArg unescape? h
  induction text generalizing text' with
  | nil =>
    cases text' with
    | nil => exact ⟨rfl, (List.cons.inj h).2⟩
    | cons d text' =>
      rw [unescape?_flatMap_escape, List.flatMap_nil, List.nil_append, unescape?_quote] at hread
      cases hread
  | cons c text ih =>
    rw [unescape?_flatMap_escape] at hread
    cases text' with
    | nil =>
      rw [List.flatMap_nil, List.nil_append, unescape?_quote] at hread
      cases hread
    | cons d text' =>
      rw [unescape?_flatMap_escape] at hread
      obtain ⟨rfl, htail⟩ := Prod.mk.inj (Option.some.inj hread)
      obtain ⟨rfl, hrest⟩ := ih htail (congrArg unescape? htail)
      exact ⟨rfl, hrest⟩

theorem quoted_append_inj (h : quoted text ++ rest = quoted text' ++ rest') :
    text = text' ∧ rest = rest' := by
  apply flatMap_escape_append_inj
  simpa [quoted] using h

theorem isInvisible_of_between {low high : Char} (hlow : ' ' ≤ low) (hhigh : high < '\x7f')
    (h : (low ≤ c && c ≤ high) = true) : isInvisible c = false := by
  rw [Bool.and_eq_true, decide_eq_true_eq, decide_eq_true_eq] at h
  have hspace : ¬ c < ' ' := not_lt.mpr (le_trans hlow h.1)
  rw [isInvisible, if_neg hspace, if_pos (lt_of_le_of_lt h.2 hhigh)]

theorem isInvisible_of_digit {base : Nat} (h : (digitValue? base c).isSome = true) :
    isInvisible c = false := by
  obtain ⟨value, hvalue⟩ := Option.isSome_iff_exists.mp h
  obtain ⟨hdigit, -⟩ := Option.filter_eq_some_iff.mp hvalue
  split at hdigit
  · next hc => exact isInvisible_of_between (by decide) (by decide) hc
  split at hdigit
  · next hc => exact isInvisible_of_between (by decide) (by decide) hc
  split at hdigit
  · next hc => exact isInvisible_of_between (by decide) (by decide) hc
  · cases hdigit

/-- What a character is shown as can be seen. -/
theorem isInvisible_of_mem_escape {d : Char} (h : d ∈ escape c) : isInvisible d = false := by
  have hpair (letter : Char) (hletter : isInvisible letter = false) (h : d ∈ ['\\', letter]) :
      isInvisible d = false := by
    simp only [List.mem_cons, List.not_mem_nil, or_false] at h
    rcases h with rfl | rfl
    · rfl
    · exact hletter
  rw [escape] at h
  split at h
  · exact hpair '"' rfl h
  split at h
  · exact hpair '\\' rfl h
  split at h
  · exact hpair 'n' rfl h
  split at h
  · exact hpair 'r' rfl h
  split at h
  · exact hpair 't' rfl h
  split at h
  · exact hpair '0' rfl h
  split at h
  · simp only [List.mem_append, List.mem_cons, List.not_mem_nil, or_false] at h
    rcases h with ((rfl | rfl | rfl) | hd) | rfl
    · rfl
    · rfl
    · rfl
    · exact isInvisible_of_digit (isSome_digitValue?_of_mem (ofDigits?_hexadecimal _ _) hd)
    · rfl
  · next hc =>
    rw [List.mem_singleton.mp h]
    exact eq_false_of_ne_true hc

/-- The characters that end a line for one reader or another. -/
def lineBreaks : List Char :=
  ['\n', '\x0b', '\x0c', '\r', '\x85', '\u2028', '\u2029']

theorem isInvisible_of_mem_lineBreaks : ∀ c ∈ lineBreaks, isInvisible c = true :=
  List.all_eq_true.mp (by decide +kernel)

theorem isInvisible_of_mem_quoted (h : c ∈ quoted text) : isInvisible c = false := by
  rw [quoted, List.mem_cons, List.mem_append, List.mem_flatMap, List.mem_singleton] at h
  rcases h with rfl | ⟨d, -, hd⟩ | rfl
  · rfl
  · exact isInvisible_of_mem_escape hd
  · rfl

end SqlTokens.Text
