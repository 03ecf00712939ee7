import SqlTokens.Proofs.Text.Number
import SqlTokens.Toml.Printer
import SqlTokens.Toml.Quote

/-!
# Strings of TOML read back

A string is written in one of four forms, which differ in the signs around it and in what is shown
for a character. Whatever is written in front of the closing signs is read character by character
(`Inside`). Only the sign itself needs care. It stands for itself inside of a tripled string as long
as it does not close the string together with those behind it (`Inside.standing`), and no form puts
too many signs together: escapes break runs of double quotes (`not_prefix_escapeBody`), and
apostrophes are chosen only if no run of them is too long (`isLiteral_of_choose`). So each string is
read as the text that it was written for, in whatever form (`quotes_string`).
-/

namespace SqlTokens.Toml

variable {sign c : Char} {tripled : Bool} {chars rest after text written : List Char} {run : Nat}

section Parts

theorem readBody?_of_closing {last : List Char}
    (h : readPart? sign tripled chars = some (.closing last, rest)) :
    readBody? sign tripled chars = some (last, rest) := by
  rw [readBody?, h]

theorem readBody?_of_char (h : readPart? sign tripled chars = some (.char c, rest)) :
    readBody? sign tripled chars =
      (readBody? sign tripled rest).map fun (text, rest) => (c :: text, rest) := by
  rw [readBody?, h]

theorem readPart?_plain (hsign : c ≠ sign) (hescape : sign = '"' → c ≠ '\\')
    (hplain : isPlain c = true) : readPart? sign tripled (c :: rest) = some (.char c, rest) := by
  have hescape : ¬ (sign = '"' ∧ c = '\\') := fun h => hescape h.1 h.2
  simp [readPart?, hsign, hescape, hplain]

theorem readPart?_newLine (hsign : '\n' ≠ sign) :
    readPart? sign true ('\n' :: rest) = some (.char '\n', rest) := by
  simp [readPart?, hsign, afterBreak?, isPlain]

theorem readPart?_escape (h : readEscape? rest = some (c, after)) (hjoin : afterJoin? rest = none) :
    readPart? '"' tripled ('\\' :: rest) = some (.char c, after) := by
  simp [readPart?, hjoin, h]

theorem afterBreak?_cons (h : c ≠ '\n' ∧ c ≠ '\r') : afterBreak? (c :: rest) = none := by
  unfold afterBreak?
  split
  · next heq => exact absurd (List.cons.inj heq).1 h.1
  · next heq => exact absurd (List.cons.inj heq).1 h.2
  · rfl

theorem afterJoin?_cons (hblank : isBlank c = false) (h : c ≠ '\n' ∧ c ≠ '\r') :
    afterJoin? (c :: rest) = none := by
  rw [afterJoin?, List.dropWhile_cons_of_neg (ne_true_of_eq_false hblank), afterBreak?_cons h]
  rfl

end Parts

section Escapes

theorem toNat_lt_of_isControl (h : isControl c = true) : c.toNat < 128 := by
  rw [isControl, Bool.or_eq_true] at h
  rcases h with hlow | hdelete
  · have hspace : c < ' ' := by simp_all
    have : c.toNat < 32 := hspace
    omega
  · rw [of_decide_eq_true hdelete]
    decide

theorem isPlain_of_not_isControl (h : isControl c = false) (hline : c ≠ '\n') :
    isPlain c = true := by
  by_cases htab : c = '\t'
  · simp [isPlain, htab]
  · have hcontrol : ¬ c < ' ' ∧ c ≠ '\x7f' := by simpa [isControl, htab, hline] using h
    simp [isPlain, Char.not_lt.mp hcontrol.1, hcontrol.2]

/-- What is shown for a character that is not a double quote. -/
inductive Shown (tripled : Bool) (c : Char) : List Char → Prop where
  | letter {d : Char} (h : ∀ rest, readEscape? (d :: rest) = some (c, rest))
      (stays : ∀ rest, afterJoin? (d :: rest) = none) : Shown tripled c ['\\', d]
  | number (h : isControl c = true) :
      Shown tripled c ('\\' :: 'u' :: (Text.hexadecimal 4 c.toNat).map Char.toUpper)
  | itself (h : ∀ rest, readPart? '"' tripled (c :: rest) = some (.char c, rest))
      (ne_return : c ≠ '\r') : Shown tripled c [c]

theorem shown_escape (tripled : Bool) (hquote : c ≠ '"') :
    Shown tripled c (escape tripled c) := by
  have hstays {d : Char} (hblank : isBlank d = false) (hbreak : d ≠ '\n' ∧ d ≠ '\r')
      (rest : List Char) : afterJoin? (d :: rest) = none := afterJoin?_cons hblank hbreak
  rw [escape]
  split
  · next hc =>
    subst hc
    exact .letter (fun _ => rfl) (hstays rfl (by decide))
  split
  · next hc =>
    subst hc
    exact .letter (fun _ => rfl) (hstays rfl (by decide))
  split
  · next hc =>
    subst hc
    cases tripled with
    | false => exact .letter (fun _ => rfl) (hstays rfl (by decide))
    | true => exact .itself (fun _ => readPart?_newLine (by decide)) (by decide)
  split
  · next hc =>
    subst hc
    exact .letter (fun _ => rfl) (hstays rfl (by decide))
  split
  · next hc =>
    subst hc
    exact .letter (fun _ => rfl) (hstays rfl (by decide))
  split
  · next hc =>
    subst hc
    exact .letter (fun _ => rfl) (hstays rfl (by decide))
  split
  · next hc => exact .number hc
  · next _ _ hline _ hreturn hbackslash hcontrol =>
    have hplain := isPlain_of_not_isControl (eq_false_of_ne_true hcontrol) hline
    exact .itself (fun _ => readPart?_plain hquote (fun _ => hbackslash) hplain) hreturn

/-- A control is read from its number. -/
theorem readEscape?_number (h : isControl c = true) (rest : List Char) :
    readEscape? ('u' :: ((Text.hexadecimal 4 c.toNat).map Char.toUpper ++ rest)) =
      some (c, rest) := by
  have hsmall : c.toNat < 65536 := Nat.lt_trans (toNat_lt_of_isControl h) (by decide)
  have hchar : char? c.toNat = some c := by
    have hvalid : c.toNat.isValidChar := c.valid
    rw [char?, if_pos hvalid, Char.ofNat_toNat]
  have hread : Text.ofDigits? 16 ((Text.hexadecimal 4 c.toNat).map Char.toUpper) =
      some c.toNat := by
    rw [Text.ofDigits?_map_toUpper, Text.ofDigits?_hexadecimal]
  obtain ⟨a, b, d, e, hdigits⟩ := Text.exists_hexadecimal_eq hsmall
  rw [hdigits, List.map_cons, List.map_cons, List.map_cons, List.map_cons, List.map_nil]
    at hread ⊢
  show readEscape? ('u' :: a.toUpper :: b.toUpper :: d.toUpper :: e.toUpper :: rest) = _
  rw [readEscape?, hread]
  simp [hchar]

theorem Shown.readPart?_eq {shown : List Char} (h : Shown tripled c shown) (rest : List Char) :
    readPart? '"' tripled (shown ++ rest) = some (.char c, rest) := by
  cases h with
  | letter h stays => exact readPart?_escape (h rest) (stays rest)
  | number h => exact readPart?_escape (readEscape?_number h rest) (afterJoin?_cons rfl (by decide))
  | itself h => exact h rest

/-- What is shown for a character starts with a backslash or is the character itself. -/
theorem Shown.exists_eq_cons {shown : List Char} (h : Shown tripled c shown) :
    ∃ d more, shown = d :: more ∧ (d = '\\' ∨ d = c ∧ c ≠ '\r') := by
  cases h with
  | letter h stays => exact ⟨_, _, rfl, .inl rfl⟩
  | number h => exact ⟨_, _, rfl, .inl rfl⟩
  | itself h ne_return => exact ⟨_, _, rfl, .inr ⟨rfl, ne_return⟩⟩

end Escapes

section Signs

/-- A sign that strings are written between. -/
def IsSign (sign : Char) : Prop :=
  sign = '"' ∨ sign = '\''

instance (sign : Char) : Decidable (IsSign sign) :=
  inferInstanceAs (Decidable (_ ∨ _))

theorem readLastSigns_replicate {n : Nat} (hn : n ≤ 2) (hrest : rest.head? ≠ some sign) :
    readLastSigns sign (List.replicate n sign ++ rest) = (List.replicate n sign, rest) := by
  match n, rest with
  | 0, [] => rfl
  | 0, [c] => simp_all [readLastSigns]
  | 0, c :: d :: rest => simp_all [readLastSigns]
  | 1, [] => simp [readLastSigns]
  | 1, c :: rest => simp_all [readLastSigns]
  | 2, rest => simp [readLastSigns]

theorem readPart?_closing (rest : List Char) :
    readPart? sign true (sign :: sign :: sign :: rest) =
      some (.closing (readLastSigns sign rest).1, (readLastSigns sign rest).2) := by
  simp [readPart?]

theorem readPart?_sign (hsign : IsSign sign) (hnext : ¬ [sign, sign] <+: rest) :
    readPart? sign true (sign :: rest) = some (.char sign, rest) := by
  have hprefix : [sign, sign].isPrefixOf rest = false := by
    rwa [← Bool.not_eq_true, List.isPrefixOf_iff_prefix]
  rcases hsign with rfl | rfl <;> simp [readPart?, hprefix, isPlain]

/-- Up to two signs in front of the closing ones belong to the string. -/
theorem readBody?_signs {n : Nat} (hn : n ≤ 2) (hrest : rest.head? ≠ some sign) :
    readBody? sign true (List.replicate n sign ++ sign :: sign :: sign :: rest) =
      some (List.replicate n sign, rest) := by
  have hmove : List.replicate n sign ++ sign :: sign :: sign :: rest =
      sign :: sign :: sign :: (List.replicate n sign ++ rest) := by
    match n, hn with
    | 0, _ => rfl
    | 1, _ => rfl
    | 2, _ => rfl
  apply readBody?_of_closing
  rw [hmove, readPart?_closing, readLastSigns_replicate hn hrest]

/-- A sign stands for itself inside of a tripled string if no two more follow it there. -/
theorem readBody?_cons_sign (hsign : IsSign sign) (hnext : ¬ [sign, sign] <+: written)
    (hrest : rest.head? ≠ some sign) :
    readBody? sign true (sign :: (written ++ sign :: sign :: sign :: rest)) =
      (readBody? sign true (written ++ sign :: sign :: sign :: rest)).map
        fun (text, rest) => (sign :: text, rest) := by
  by_cases hlast : ∃ n ≤ 1, written = List.replicate n sign
  · -- The sign is one of the last characters, which are read all at once.
    obtain ⟨n, hn, rfl⟩ := hlast
    rw [readBody?_signs (Nat.le_succ_of_le hn) hrest, ← List.cons_append, ← List.replicate_succ,
      readBody?_signs (Nat.succ_le_succ hn) hrest, List.replicate_succ]
    rfl
  · apply readBody?_of_char
    apply readPart?_sign hsign
    match written with
    | [] => exact absurd ⟨0, by decide, rfl⟩ hlast
    | [c] =>
      intro hprefix
      obtain ⟨rfl, -⟩ := List.cons_prefix_cons.mp hprefix
      exact hlast ⟨1, Nat.le_refl 1, rfl⟩
    | c :: d :: written =>
      intro hprefix
      apply hnext
      exact List.prefix_of_prefix_length_le hprefix (List.prefix_append _ _) (by simp)

end Signs

section Inside

/-- How many signs can stand together inside of a string. One more would close it. -/
def maxRun (tripled : Bool) : Nat :=
  if tripled then 2 else 0

/-- The signs that close a string. -/
def closingSigns (sign : Char) (tripled : Bool) : List Char :=
  List.replicate (maxRun tripled + 1) sign

/-- In front of the closing signs, what is written is read as a text. -/
def Inside (sign : Char) (tripled : Bool) (written text : List Char) : Prop :=
  ∀ rest, rest.head? ≠ some sign →
    readBody? sign tripled (written ++ (closingSigns sign tripled ++ rest)) = some (text, rest)

theorem Inside.nil : Inside sign tripled [] [] := by
  intro rest hrest
  cases tripled with
  | false =>
    apply readBody?_of_closing
    simp [closingSigns, maxRun, readPart?]
  | true => exact readBody?_signs (Nat.zero_le 2) hrest

theorem Inside.char (h : Inside sign tripled written text) {shown : List Char}
    (hread : ∀ rest, readPart? sign tripled (shown ++ rest) = some (.char c, rest)) :
    Inside sign tripled (shown ++ written) (c :: text) := by
  intro rest hrest
  rw [List.append_assoc, readBody?_of_char (hread _), h rest hrest]
  rfl

/-- A sign stands for itself if those behind it do not close the string together with it. -/
theorem Inside.standing (h : Inside sign tripled written text) (hsign : IsSign sign)
    (hnext : ¬ List.replicate (maxRun tripled) sign <+: written) :
    Inside sign tripled (sign :: written) (sign :: text) := by
  cases tripled with
  | false => exact absurd List.nil_prefix hnext
  | true =>
    intro rest hrest
    have hread : readBody? sign true (written ++ sign :: sign :: sign :: rest) =
        some (text, rest) := h rest hrest
    show readBody? sign true (sign :: (written ++ sign :: sign :: sign :: rest)) = _
    rw [readBody?_cons_sign hsign hnext hrest, hread]
    rfl

end Inside

section DoubleQuotes

theorem escapeBody_sign (h : run < maxRun tripled) :
    escapeBody tripled run ('"' :: text) = '"' :: escapeBody tripled (run + 1) text := by
  rw [escapeBody, if_pos rfl]
  exact if_pos h

theorem escapeBody_escaped (h : ¬ run < maxRun tripled) :
    escapeBody tripled run ('"' :: text) = '\\' :: '"' :: escapeBody tripled 0 text := by
  rw [escapeBody, if_pos rfl]
  exact if_neg h

theorem escapeBody_of_ne (h : c ≠ '"') :
    escapeBody tripled run (c :: text) = escape tripled c ++ escapeBody tripled 0 text := by
  rw [escapeBody, if_neg h]

/-- No more double quotes stand together than can, where `run` of them stand in front. -/
theorem not_prefix_escapeBody {n : Nat} (hrun : run ≤ maxRun tripled)
    (hmany : maxRun tripled < run + n) :
    ¬ List.replicate n '"' <+: escapeBody tripled run text := by
  induction text generalizing run n with
  | nil =>
    rw [escapeBody, List.prefix_nil, List.replicate_eq_nil_iff]
    omega
  | cons c text ih =>
    obtain ⟨n, rfl⟩ := Nat.exists_eq_succ_of_ne_zero (n := n) (by omega)
    rw [List.replicate_succ]
    by_cases hc : c = '"'
    · subst hc
      by_cases hlt : run < maxRun tripled
      · rw [escapeBody_sign hlt, List.cons_prefix_cons]
        exact fun h => ih hlt (by omega) h.2
      · rw [escapeBody_escaped hlt, List.cons_prefix_cons]
        exact fun h => absurd h.1 (by decide)
    · obtain ⟨d, more, heq, hd⟩ := (shown_escape tripled hc).exists_eq_cons
      rw [escapeBody_of_ne hc, heq, List.cons_append, List.cons_prefix_cons]
      rintro ⟨rfl, -⟩
      rcases hd with hd | ⟨hd, -⟩
      · exact absurd hd (by decide)
      · exact hc hd.symm

theorem inside_escapeBody (hrun : run ≤ maxRun tripled) :
    Inside '"' tripled (escapeBody tripled run text) text := by
  induction text generalizing run with
  | nil => exact .nil
  | cons c text ih =>
    by_cases hc : c = '"'
    · subst hc
      by_cases hlt : run < maxRun tripled
      · rw [escapeBody_sign hlt]
        apply (ih hlt).standing (.inl rfl)
        exact not_prefix_escapeBody hlt (by omega)
      · have hread (rest : List Char) :
            readPart? '"' tripled (['\\', '"'] ++ rest) = some (.char '"', rest) :=
          readPart?_escape rfl (afterJoin?_cons rfl (by decide))
        rw [escapeBody_escaped hlt]
        exact (ih (Nat.zero_le _)).char hread
    · rw [escapeBody_of_ne hc]
      exact (ih (Nat.zero_le _)).char (shown_escape tripled hc).readPart?_eq

/-- A text does not start with a line break. -/
def StaysInLine (text : List Char) : Prop :=
  ∀ c ∈ text.head?, c ≠ '\n' ∧ c ≠ '\r'

theorem staysInLine_escapeBody (hline : '\n' ∉ text) :
    StaysInLine (escapeBody tripled run text) := by
  intro d hd
  cases text with
  | nil => cases hd
  | cons c text =>
    by_cases hc : c = '"'
    · subst hc
      by_cases hlt : run < maxRun tripled
      · rw [escapeBody_sign hlt] at hd
        cases hd
        decide
      · rw [escapeBody_escaped hlt] at hd
        cases hd
        decide
    · obtain ⟨first, more, heq, hfirst⟩ := (shown_escape tripled hc).exists_eq_cons
      rw [escapeBody_of_ne hc, heq] at hd
      cases hd
      rcases hfirst with rfl | ⟨rfl, hreturn⟩
      · decide
      · exact ⟨fun hd => hline (hd ▸ List.mem_cons_self), hreturn⟩

end DoubleQuotes

section Apostrophes

/-- A text that can stand as it is between apostrophes. -/
structure IsLiteral (tripled : Bool) (text : List Char) : Prop where
  controls : ∀ c ∈ text, isControl c = false
  lines : '\n' ∈ text → tripled = true
  runs : ¬ List.replicate (maxRun tripled + 1) '\'' <:+: text

theorem IsLiteral.tail (h : IsLiteral tripled (c :: text)) : IsLiteral tripled text where
  controls d hd := h.controls d (List.mem_cons_of_mem c hd)
  lines hline := h.lines (List.mem_cons_of_mem c hline)
  runs hruns := h.runs (List.infix_cons hruns)

theorem IsLiteral.inside (h : IsLiteral tripled text) : Inside '\'' tripled text text := by
  induction text with
  | nil => exact .nil
  | cons c text ih =>
    by_cases hc : c = '\''
    · subst hc
      apply (ih h.tail).standing (.inr rfl)
      intro hnext
      apply h.runs
      exact (List.cons_prefix_cons.mpr ⟨rfl, hnext⟩).isInfix
    · have hread (rest : List Char) :
          readPart? '\'' tripled ([c] ++ rest) = some (.char c, rest) := by
        by_cases hline : c = '\n'
        · subst hline
          rw [h.lines List.mem_cons_self]
          exact readPart?_newLine (by decide)
        · apply readPart?_plain hc (fun h => absurd h (by decide))
          exact isPlain_of_not_isControl (h.controls c List.mem_cons_self) hline
      exact (ih h.tail).char hread

theorem IsLiteral.staysInLine (h : IsLiteral tripled text) (hline : '\n' ∉ text) :
    StaysInLine text := by
  intro c hc
  have hmem := List.mem_of_mem_head? hc
  constructor
  · rintro rfl
    exact hline hmem
  · rintro rfl
    exact absurd (h.controls '\r' hmem) (by decide)

/-- Go on with a run of a character, or break it off. -/
def stepRun (c : Char) (state : Nat × Nat) (d : Char) : Nat × Nat :=
  let run := if d = c then state.2 + 1 else 0
  (max state.1 run, run)

theorem fst_le_foldl_stepRun (c : Char) (text : List Char) (state : Nat × Nat) :
    state.1 ≤ (text.foldl (stepRun c) state).1 := by
  induction text generalizing state with
  | nil => exact Nat.le_refl _
  | cons d text ih => exact Nat.le_trans (Nat.le_max_left _ _) (ih (stepRun c state d))

theorem stepRun_self (state : Nat × Nat) :
    stepRun c state c = (max state.1 (state.2 + 1), state.2 + 1) := by
  simp [stepRun]

theorem foldl_stepRun_replicate (c : Char) (n : Nat) (state : Nat × Nat) :
    state.2 + (n + 1) ≤ ((List.replicate (n + 1) c).foldl (stepRun c) state).1 := by
  induction n generalizing state with
  | zero =>
    rw [List.replicate_one, List.foldl_cons, stepRun_self]
    exact Nat.le_max_right _ _
  | succ n ih =>
    have hrest := ih (stepRun c state c)
    rw [List.replicate_succ, List.foldl_cons]
    rw [stepRun_self] at hrest ⊢
    omega

/-- No run is longer than the longest one. -/
theorem le_longestRun {n : Nat} (h : List.replicate n c <:+: text) : n ≤ longestRun c text := by
  obtain ⟨before, behind, rfl⟩ := h
  cases n with
  | zero => exact Nat.zero_le _
  | succ n =>
    show n + 1 ≤ ((before ++ List.replicate (n + 1) c ++ behind).foldl (stepRun c) (0, 0)).1
    rw [List.foldl_append, List.foldl_append]
    have hrun := foldl_stepRun_replicate c n (before.foldl (stepRun c) (0, 0))
    have hrest := fst_le_foldl_stepRun c behind
      ((List.replicate (n + 1) c).foldl (stepRun c) (before.foldl (stepRun c) (0, 0)))
    omega

theorem isLiteral_of_choose (h : StringForm.choose text = .literal tripled) :
    IsLiteral tripled text := by
  have hall (hnone : text.any isControl = false) : ∀ c ∈ text, isControl c = false := by
    simpa using hnone
  have hruns (hfew : longestRun '\'' text ≤ maxRun tripled) :
      ¬ List.replicate (maxRun tripled + 1) '\'' <:+: text :=
    fun hmany => absurd (le_longestRun hmany) (Nat.not_le_of_lt (Nat.lt_succ_of_le hfew))
  simp only [StringForm.choose] at h
  split at h
  · cases h
  split at h
  · next hform =>
    cases h
    simp only [Bool.and_eq_true, Bool.not_eq_true', decide_eq_true_eq] at hform
    obtain ⟨⟨hcontrols, hsigns⟩, hlines⟩ := hform
    refine ⟨hall hcontrols, ?_, hruns (Nat.le_of_eq hsigns)⟩
    simpa using hlines
  split at h
  · cases h
  split at h
  · next hform =>
    cases h
    simp only [Bool.and_eq_true, Bool.not_eq_true', decide_eq_true_eq] at hform
    exact ⟨hall hform.1, fun _ => rfl, hruns hform.2⟩
  · cases h

end Apostrophes

section Strings

/-- The break behind the opening signs goes away, and nothing else does. -/
theorem afterBreak?_openingBreak (hsign : IsSign sign)
    (hline : '\n' ∉ text → StaysInLine written) :
    let body := written ++ (closingSigns sign true ++ rest)
    (afterBreak? (openingBreak true text ++ body)).getD (openingBreak true text ++ body) =
      body := by
  intro body
  by_cases hbreak : '\n' ∈ text
  · have hopening : openingBreak true text = ['\n'] := by simpa [openingBreak] using hbreak
    rw [hopening]
    rfl
  · have hopening : openingBreak true text = [] := by simpa [openingBreak] using hbreak
    have hnone : afterBreak? body = none := by
      cases written with
      | nil =>
        apply afterBreak?_cons
        rcases hsign with rfl | rfl <;> decide
      | cons c written => exact afterBreak?_cons (hline hbreak c rfl)
    rw [hopening, List.nil_append, hnone]
    rfl

theorem readString?_single (h : ¬ [sign, sign] <+: chars) : readString? sign chars =
    (readBody? sign false chars).map fun (text, rest) => (text, false, rest) := by
  rw [← List.isPrefixOf_iff_prefix] at h
  rw [readString?, if_neg h]

theorem readString?_tripled (chars : List Char) : readString? sign (sign :: sign :: chars) =
    (readBody? sign true ((afterBreak? chars).getD chars)).map
      fun (text, rest) => (text, true, rest) := by
  simp [readString?]

/-- What is written starts with a sign, and behind the sign a text is read. -/
def Quotes (written text : List Char) : Prop :=
  ∃ sign tripled inside, IsSign sign ∧ written = sign :: inside ∧
    ∀ rest, rest.head? ≠ some sign → readString? sign (inside ++ rest) = some (text, tripled, rest)

theorem Inside.quotes (h : Inside sign tripled written text) (hsign : IsSign sign)
    (hfirst : ¬ List.replicate (maxRun tripled + 1) sign <+: written)
    (hline : '\n' ∉ text → StaysInLine written) :
    Quotes (closingSigns sign tripled ++ openingBreak tripled text ++ written ++
      closingSigns sign tripled) text := by
  refine ⟨sign, tripled, List.replicate (maxRun tripled) sign ++ openingBreak tripled text ++
    written ++ closingSigns sign tripled, hsign, rfl, ?_⟩
  intro rest hrest
  simp only [List.append_assoc]
  cases tripled with
  | false =>
    have hnext : ¬ [sign, sign] <+: written ++ (closingSigns sign false ++ rest) := by
      intro hnext
      cases written with
      | nil =>
        obtain ⟨-, hnext⟩ := List.cons_prefix_cons.mp hnext
        obtain ⟨more, rfl⟩ := hnext
        exact hrest rfl
      | cons c written =>
        obtain ⟨rfl, -⟩ := List.cons_prefix_cons.mp hnext
        exact hfirst ⟨written, rfl⟩
    show readString? sign (written ++ (closingSigns sign false ++ rest)) = _
    rw [readString?_single hnext, h rest hrest]
    rfl
  | true =>
    show readString? sign (sign :: sign :: (openingBreak true text ++ _)) = _
    rw [readString?_tripled, afterBreak?_openingBreak hsign hline, h rest hrest]
    rfl

/-- A string is read as the text that it was written for. -/
theorem quotes_string (text : List Char) : Quotes (string text) text := by
  have hsigns (sign : Char) (tripled : Bool) :
      List.replicate (if tripled then 3 else 1) sign = closingSigns sign tripled := by
    cases tripled <;> rfl
  rw [string]
  split
  · next tripled _ =>
    rw [hsigns]
    apply (inside_escapeBody (Nat.zero_le _)).quotes (.inl rfl)
    · exact not_prefix_escapeBody (Nat.zero_le _) (by omega)
    · exact staysInLine_escapeBody
  · next tripled hform =>
    have hliteral := isLiteral_of_choose hform
    rw [hsigns]
    apply hliteral.inside.quotes (.inr rfl)
    · exact fun hruns => hliteral.runs hruns.isInfix
    · exact hliteral.staysInLine

end Strings

end SqlTokens.Toml
