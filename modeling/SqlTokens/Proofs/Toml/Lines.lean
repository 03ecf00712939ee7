import SqlTokens.Proofs.Text.Spelling
import SqlTokens.Proofs.Toml.Quote
import SqlTokens.Proofs.Toml.Scalar
import SqlTokens.Toml.Document

/-!
# Lines of TOML read back

A document of plain lines is followed from its text to its statements. A text spells its lexemes
wherever it stands if it ends with a line break (`Spells`); and the automaton that takes them goes
from the start of a line to the start of the next one, with one statement more (`Says`). So the
lines that are written for headers and for keys with their values can be put together in any order
(`Says.append`), and they are read as what they say (`read?_of_says`).
-/

namespace SqlTokens.Toml

section Lexemes

variable {c d : Char} {chars text written rest : List Char} {lexeme : Lexeme} {spelt : List Lexeme}

theorem lexemes?_nil : lexemes? [] = some [] := by
  rw [lexemes?]
  rfl

theorem lexemes?_of_readLexeme? (h : readLexeme? chars = some (some lexeme, rest)) :
    lexemes? chars = (lexemes? rest).map (lexeme :: ·) := by
  have hne : chars ≠ [] := by
    rintro rfl
    cases h
  rw [lexemes?, if_neg (by simpa using hne)]
  split
  · next hnone =>
    rw [h] at hnone
    cases hnone
  · next lexeme' after hsome =>
    rw [h] at hsome
    cases hsome
    rfl

theorem readLexeme?_blank (hd : isBlank d = false) :
    readLexeme? (' ' :: d :: rest) = some (some (.blank [' ']), d :: rest) := by
  have hneg : ¬ isBlank d = true := ne_true_of_eq_false hd
  have hblank : isBlank ' ' = true := by decide
  rw [readLexeme?, if_pos hblank, List.takeWhile_cons_of_neg hneg, List.dropWhile_cons_of_neg hneg]

theorem readLexeme?_mark (hc : c ∈ marks) (rest : List Char) :
    readLexeme? (c :: rest) = some (some (.mark c), rest) := by
  simp only [marks, List.mem_cons, List.not_mem_nil, or_false] at hc
  rcases hc with rfl | rfl | rfl | rfl | rfl | rfl | rfl <;> rfl

/-- Characters that go on with a word, and the first of them does not open a string. -/
structure IsWord (chars : List Char) : Prop where
  ne_nil : chars ≠ []
  first : ∀ c ∈ chars.head?, ¬ IsSign c
  inside : ∀ c ∈ chars, isWordChar c = true

theorem readLexeme?_word (h : IsWord chars) (hd : isWordChar d = false) :
    readLexeme? (chars ++ d :: rest) = some (some (.word chars), d :: rest) := by
  cases chars with
  | nil => exact absurd rfl h.ne_nil
  | cons c chars =>
    have hfirst : ¬ (c = '"' ∨ c = '\'') := h.first c rfl
    have hc := h.inside c List.mem_cons_self
    have hrest : ∀ c ∈ chars, isWordChar c = true :=
      fun c hc => h.inside c (List.mem_cons_of_mem _ hc)
    have hneg : ¬ isWordChar d = true := ne_true_of_eq_false hd
    have htake : (chars ++ d :: rest).takeWhile isWordChar = chars := by
      rw [List.takeWhile_append_of_pos hrest, List.takeWhile_cons_of_neg hneg, List.append_nil]
    have hdrop : (chars ++ d :: rest).dropWhile isWordChar = d :: rest := by
      rw [List.dropWhile_append_of_pos hrest, List.dropWhile_cons_of_neg hneg]
    simp only [isWordChar, Bool.not_eq_true', Bool.or_eq_false_iff, decide_eq_false_iff_not] at hc
    obtain ⟨⟨⟨⟨hmark, hblank⟩, hline⟩, hreturn⟩, hcomment⟩ := hc
    rw [List.cons_append, readLexeme?, htake, hdrop, hmark, hblank]
    simp [hline, hreturn, hcomment, hfirst]

theorem readLexeme?_quotes (h : Quotes written text) (hd : ¬ IsSign d) : ∃ tripled, ∀ rest,
    readLexeme? (written ++ d :: rest) = some (some (.string text tripled), d :: rest) := by
  obtain ⟨sign, tripled, inside, hsign, rfl, hread⟩ := h
  refine ⟨tripled, fun rest => ?_⟩
  have hnext : (d :: rest).head? ≠ some sign := by
    rintro ⟨⟩
    exact hd hsign
  have hinside := hread (d :: rest) hnext
  rcases hsign with rfl | rfl
  · simp [readLexeme?, hinside, isBlank]
  · simp [readLexeme?, hinside, isBlank]

/-- A text is read as given lexemes, whatever follows it. -/
def Spells (text : List Char) (spelt : List Lexeme) : Prop :=
  Text.Spells lexemes? text spelt

theorem Spells.cons (h : Spells text spelt)
    (hread : ∀ rest, readLexeme? (written ++ (text ++ rest)) = some (some lexeme, text ++ rest)) :
    Spells (written ++ text) (lexeme :: spelt) := by
  intro rest
  rw [List.append_assoc, lexemes?_of_readLexeme? (hread rest), h rest, Option.map_map]
  rfl

theorem spells_newLine : Spells ['\n'] [.newLine] := by
  intro rest
  exact lexemes?_of_readLexeme? rfl

theorem Spells.mark (h : Spells text spelt) (hc : c ∈ marks) :
    Spells (c :: text) (.mark c :: spelt) := by
  have hread (rest : List Char) : readLexeme? ([c] ++ (text ++ rest)) =
      some (some (.mark c), text ++ rest) := readLexeme?_mark hc _
  exact h.cons hread

theorem Spells.blank (h : Spells (d :: text) spelt) (hd : isBlank d = false) :
    Spells (' ' :: d :: text) (.blank [' '] :: spelt) := by
  have hread (rest : List Char) : readLexeme? ([' '] ++ (d :: text ++ rest)) =
      some (some (.blank [' ']), d :: text ++ rest) := readLexeme?_blank hd
  exact h.cons hread

theorem Spells.word (h : Spells (d :: text) spelt) (hd : isWordChar d = false)
    (hword : IsWord chars) : Spells (chars ++ d :: text) (.word chars :: spelt) :=
  h.cons fun _ => readLexeme?_word hword hd

end Lexemes

section Lines

variable {c : Char} {key written text text' : List Char} {value : Value}
  {statements statements' : List Statement}

/-- A text of whole lines says statements, one after the other. -/
def Says (text : List Char) (statements : List Statement) : Prop :=
  ∃ spelt, Spells text spelt ∧ ∀ done, spelt.foldlM Reading.take ⟨done, .lineStart⟩ =
    some ⟨statements.reverse ++ done, .lineStart⟩

theorem Says.append (h : Says text statements) (h' : Says text' statements') :
    Says (text ++ text') (statements ++ statements') := by
  obtain ⟨spelt, hspells, htake⟩ := h
  obtain ⟨spelt', hspells', htake'⟩ := h'
  refine ⟨spelt ++ spelt', Text.Spells.append hspells hspells', ?_⟩
  intro done
  rw [List.foldlM_append, htake, Option.bind_eq_bind, Option.bind_some, htake',
    List.reverse_append, List.append_assoc]

theorem read?_of_says (h : Says text statements) (hmark : skipByteOrderMark text = text) :
    read? text = ofStatements? statements := by
  obtain ⟨spelt, hspells, htake⟩ := h
  have hstatements : statements? spelt = some statements := by
    rw [statements?, Reading.start, htake]
    simp [Reading.finish]
  rw [read?, hmark, Text.Spells.eq_some hspells lexemes?_nil, Option.bind_eq_bind, Option.bind_some,
    hstatements, Option.bind_eq_bind, Option.bind_some]

theorem foldlM_take_cons {reading next : Reading} {lexeme : Lexeme}
    (h : reading.take lexeme = some next) (lexemes : List Lexeme) :
    (lexeme :: lexemes).foldlM Reading.take reading = lexemes.foldlM Reading.take next := by
  rw [List.foldlM_cons, h]
  rfl

theorem says_emptyLine : Says ['\n'] [] :=
  ⟨[.newLine], spells_newLine, fun _ => rfl⟩

/-- A key that can be written without quotes. -/
structure IsBare (key : List Char) : Prop where
  ne_nil : key ≠ []
  all : key.all (fun c => c.isAlphanum || c = '_' || c = '-') = true

theorem IsBare.isWord (h : IsBare key) : IsWord key := by
  have hchars : ∀ c ∈ key, (c.isAlphanum || c = '_' || c = '-') = true := List.all_eq_true.mp h.all
  have hother {c d : Char} (hc : c ∈ key)
      (hd : (d.isAlphanum || d = '_' || d = '-') = false) : c ≠ d := by
    rintro rfl
    exact absurd (hchars c hc) (ne_true_of_eq_false hd)
  refine ⟨h.ne_nil, ?_, ?_⟩
  · rintro c hc (rfl | rfl)
    · exact hother (List.mem_of_mem_head? hc) (by decide) rfl
    · exact hother (List.mem_of_mem_head? hc) (by decide) rfl
  · intro c hc
    simp [isWordChar, marks, isBlank, hother hc]

theorem says_header (hkey : IsBare key) : Says ('[' :: (key ++ [']', '\n'])) [.table [key]] := by
  refine ⟨[.mark '[', .word key, .mark ']', .newLine], ?_, ?_⟩
  · have hclose : Spells [']', '\n'] [.mark ']', .newLine] := spells_newLine.mark (by decide)
    exact (hclose.word (by decide) hkey.isWord).mark (by decide)
  · intro done
    have hopen : Reading.take ⟨done, .lineStart⟩ (.mark '[') = some ⟨done, .header⟩ := rfl
    have hname : Reading.take ⟨done, .header⟩ (.word key) = some ⟨done, .keyEnd .table [key]⟩ :=
      if_pos hkey.all
    have hclose : Reading.take ⟨done, .keyEnd .table [key]⟩ (.mark ']') =
        some ⟨.table [key] :: done, .lineEnd⟩ := rfl
    rw [foldlM_take_cons hopen, foldlM_take_cons hname, foldlM_take_cons hclose]
    rfl

/-- A text stands for a value if the line ends behind it. -/
inductive Shows : List Char → Value → Prop where
  | word {chars : List Char} {value : Value} (isWord : IsWord chars)
      (h : scalar? chars = some value) : Shows chars value
  | string {written text : List Char} (h : Quotes written text) : Shows written (.string text)

theorem shows_decimal (n : Nat) : Shows (Text.decimal n) (.integer n) := by
  have hbare : IsBare (Text.decimal n) := by
    refine ⟨Nat.toDigits_ne_nil, List.all_eq_true.mpr ?_⟩
    intro c hc
    simp [Char.isAlphanum, areDigits_decimal n c hc]
  exact .word hbare.isWord (scalar?_decimal n)

theorem shows_boolean (truth : Bool) :
    Shows (if truth then "true" else "false").toList (.boolean truth) := by
  cases truth with
  | false => exact .word (IsBare.isWord ⟨by decide, by decide⟩) rfl
  | true => exact .word (IsBare.isWord ⟨by decide, by decide⟩) rfl

theorem isBlank_of_isWordChar (h : isWordChar c = true) : isBlank c = false := by
  simp only [isWordChar, Bool.not_eq_true', Bool.or_eq_false_iff] at h
  exact h.1.1.1.2

theorem Shows.exists_eq_cons (h : Shows written value) :
    ∃ c more, written = c :: more ∧ isBlank c = false := by
  cases h with
  | word isWord h =>
    obtain ⟨c, more, rfl⟩ := List.exists_cons_of_ne_nil isWord.ne_nil
    exact ⟨c, more, rfl, isBlank_of_isWordChar (isWord.inside c List.mem_cons_self)⟩
  | string h =>
    obtain ⟨sign, tripled, inside, hsign, rfl, -⟩ := h
    refine ⟨sign, inside, rfl, ?_⟩
    rcases hsign with rfl | rfl <;> decide

/-- A value is one lexeme, and behind it the line ends with the value. -/
theorem Shows.exists_lexeme (h : Shows written value) : ∃ lexeme,
    Spells (written ++ ['\n']) [lexeme, .newLine] ∧ ∀ done path,
      [lexeme, .newLine].foldlM Reading.take ⟨done, .value [.entry path]⟩ =
        some ⟨.entry path value :: done, .lineStart⟩ := by
  cases h with
  | word isWord h =>
    refine ⟨.word written, spells_newLine.word (by decide) isWord, ?_⟩
    intro done path
    have hword : Reading.take ⟨done, .value [.entry path]⟩ (.word written) =
        some ⟨done, .scalar written [.entry path]⟩ := rfl
    have hend : Reading.take ⟨done, .scalar written [.entry path]⟩ .newLine =
        some ⟨.entry path value :: done, .lineStart⟩ := by
      show (Reading.finishScalar _ written _).bind _ = _
      rw [Reading.finishScalar, h]
      rfl
    rw [foldlM_take_cons hword, foldlM_take_cons hend]
    rfl
  | string h =>
    obtain ⟨tripled, hread⟩ := readLexeme?_quotes h (d := '\n') (by decide)
    exact ⟨.string _ tripled, spells_newLine.cons hread, fun _ _ => rfl⟩

theorem says_entry (hkey : IsBare key) (hvalue : Shows written value) :
    Says (key ++ [' ', '=', ' '] ++ written ++ ['\n']) [.entry [key] value] := by
  obtain ⟨lexeme, hspells, htake⟩ := hvalue.exists_lexeme
  obtain ⟨c, more, rfl, hc⟩ := hvalue.exists_eq_cons
  refine ⟨[.word key, .blank [' '], .mark '=', .blank [' '], lexeme, .newLine], ?_, ?_⟩
  · have hequals : Spells (' ' :: '=' :: ' ' :: (c :: more ++ ['\n']))
        [.blank [' '], .mark '=', .blank [' '], lexeme, .newLine] :=
      ((hspells.blank hc).mark (by decide)).blank (by decide)
    have hline := hequals.word (by decide) hkey.isWord
    simpa using hline
  · intro done
    let named : Reading := ⟨done, .keyEnd .entry [key]⟩
    let awaiting : Reading := ⟨done, .value [.entry [key]]⟩
    have hname : Reading.take ⟨done, .lineStart⟩ (.word key) = some named := if_pos hkey.all
    have hblank : named.take (.blank [' ']) = some named := rfl
    have hequals : named.take (.mark '=') = some awaiting := rfl
    have hblank' : awaiting.take (.blank [' ']) = some awaiting := rfl
    have hend : [lexeme, .newLine].foldlM Reading.take awaiting =
        some ⟨.entry [key] value :: done, .lineStart⟩ := htake done [key]
    rw [foldlM_take_cons hname, foldlM_take_cons hblank, foldlM_take_cons hequals,
      foldlM_take_cons hblank', hend]
    rfl

end Lines

end SqlTokens.Toml
