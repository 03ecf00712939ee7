import SqlTokens.Proofs.Run.Reports
import SqlTokens.Proofs.Text.Quoted
import SqlTokens.Text.Pieces

/-!
# Tokens in lines

Every token takes one line, whatever its text is: nothing in it breaks a line, because what could do
so cannot be seen and is written as an escape (`pieces_lines`). The line tells the token, so a list
of tokens can be told from the text that is printed for it, and so can the input that it was read
from (`lines_are_unambiguous`).
-/

namespace SqlTokens

namespace Token

variable {token token' : Token} {c : Char}

/-- The name of a kind consists of letters. -/
theorem isAlpha_of_mem_name {kind : Kind} (h : c ∈ kind.name.toList) : c.isAlpha = true := by
  have hall : kind.name.toList.all Char.isAlpha = true := by cases kind <;> decide
  exact List.all_eq_true.mp hall c h

/-- No character of a token's line breaks the line. -/
theorem not_mem_lineBreaks_of_mem_labelled (h : c ∈ token.labelled ['\t']) :
    c ∉ Text.lineBreaks := by
  have hletters : ∀ c ∈ Text.lineBreaks, (!c.isAlpha) = true := List.all_eq_true.mp (by decide)
  intro hbreak
  rw [labelled, List.mem_append, List.mem_append, List.mem_singleton] at h
  rcases h with (hname | rfl) | hquoted
  · have hletter := hletters c hbreak
    rw [isAlpha_of_mem_name hname] at hletter
    cases hletter
  · revert hbreak
    decide
  · have hvisible := Text.isInvisible_of_mem_quoted hquoted
    rw [Text.isInvisible_of_mem_lineBreaks c hbreak] at hvisible
    cases hvisible

/-- A line tells its token: the kind stands before the first tab, and the quoted text behind it. -/
theorem labelled_inj (h : token.labelled ['\t'] = token'.labelled ['\t']) : token = token' := by
  have htab (kind : Kind) : '\t' ∉ kind.name.toList := by
    intro hmem
    exact absurd (isAlpha_of_mem_name hmem) (by decide)
  obtain ⟨kind, text⟩ := token
  obtain ⟨kind', text'⟩ := token'
  simp only [labelled, List.append_assoc, List.singleton_append] at h
  have hpieces := congrArg (Text.pieces '\t') h
  rw [Text.pieces_append_cons (htab kind), Text.pieces_append_cons (htab kind')] at hpieces
  have hname : kind.name = kind'.name := String.toList_inj.mp (List.cons.inj hpieces).1
  have hkind : some kind = some kind' := by rw [← kind.ofName?_name, ← kind'.ofName?_name, hname]
  obtain rfl := Option.some.inj hkind
  obtain ⟨-, hquoted⟩ := List.cons.inj (List.append_cancel_left h)
  have htext : Text.quoted text ++ [] = Text.quoted text' ++ [] := by rw [hquoted]
  rw [(Text.quoted_append_inj htext).1]

end Token

namespace Report

variable {tokens tokens' : List Token}

/-- The lines of a printed text are those of its tokens. -/
theorem pieces_lines (tokens : List Token) :
    Text.pieces '\n' (lines tokens) = tokens.map (·.labelled ['\t']) ++ [[]] := by
  have hbreak : ∀ text ∈ tokens.map (·.labelled ['\t']), '\n' ∉ text := by
    intro text htext hmem
    obtain ⟨token, -, rfl⟩ := List.mem_map.mp htext
    exact Token.not_mem_lineBreaks_of_mem_labelled hmem (by decide)
  rw [← Text.pieces_flatMap hbreak, List.flatMap_map]
  rfl

theorem lines_inj (h : lines tokens = lines tokens') : tokens = tokens' := by
  have hpieces := congrArg (Text.pieces '\n') h
  rw [pieces_lines, pieces_lines, List.append_cancel_right_eq] at hpieces
  exact List.map_injective_iff.mpr (fun _ _ => Token.labelled_inj) hpieces

/-- A list of tokens is printed with one line for each token, in order, and no line holds a
character that breaks lines; so two lists are printed alike only if they are the same. A run that
lists all tokens of a text prints just these lines; so if two such runs print the same, they have
read the same text, whatever settings they work with and however their inputs come in. -/
theorem lines_are_unambiguous :
    (∀ tokens, Text.pieces '\n' (lines tokens) = tokens.map (·.labelled ['\t']) ++ [[]] ∧
        ∀ token ∈ tokens, ∀ c ∈ token.labelled ['\t'], c ∉ Text.lineBreaks) ∧
      (∀ tokens tokens', lines tokens = lines tokens' → tokens = tokens') ∧
      ∀ {σ : Type} (machine : Machine σ) files arguments text,
        machine.Reports files arguments false (Report.tokens .text) text →
        let outcome := machine.run files arguments
        outcome.ending = .succeeded ∧ outcome.printed = lines (tokensOf text) ∧
          ∀ {τ : Type} (machine' : Machine τ) files' arguments' text',
            machine'.Reports files' arguments' false (Report.tokens .text) text' →
            outcome.printed = (machine'.run files' arguments').printed → text = text' := by
  refine ⟨?_, fun _ _ => lines_inj, ?_⟩
  · intro tokens
    exact ⟨pieces_lines tokens, fun _ _ _ => Token.not_mem_lineBreaks_of_mem_labelled⟩
  · intro σ machine files arguments text h outcome
    refine ⟨h.ending_eq, h.printed_eq, ?_⟩
    intro τ machine' files' arguments' text' h' heq
    rw [h.printed_eq, h'.printed_eq] at heq
    have htokens : tokensOf text = tokensOf text' := lines_inj heq
    rw [← source_tokensOf text, ← source_tokensOf text', htokens]

/-- A backslash, a line break and a quote, in two chunks on the standard input. A file that is read
one character at a time and listed in the same lines can hold nothing else. -/
theorem lines_are_unambiguous_hostile_text :
    let text := ['\\', '\n', '"']
    let disk : Disk := ⟨[], [], [([['d']], [0x5c, 0x0a, 0x22])]⟩
    let piped := Disk.machine [] (.ofChunks [.data [0x5c], .data [0x0a, 0x22]])
    let single := Disk.machine [("SQLLEXER_BATCH_SIZE", [0x31])] (.ofBytes [])
    let arguments := ["tokenize".toList, "-f".toList, "TEXT".toList, "d".toList]
    piped.Reports disk ["tokenize".toList] false (Report.tokens .text) text ∧
      single.Reports disk arguments false (Report.tokens .text) text ∧
      (piped.run disk ["tokenize".toList]).printed =
        "Literal\t\"\\\\\"\nWhitespace\t\"\\n\"\nQuotedString\t\"\\\"\"\n".toList ∧
      ∀ text', single.Reports disk arguments false (Report.tokens .text) text' → text = text' := by
  intro text disk piped single arguments
  have htokens : tokensOf text =
      [⟨.literal, ['\\']⟩, ⟨.whitespace, ['\n']⟩, ⟨.quotedString, ['"']⟩] := by cbv
  have hdefault : (piped.surroundings disk).settings ⟨none, none, .tokenize none false none⟩ =
      .ok .default := rfl
  have hsingle : (single.surroundings disk).settings
      ⟨none, none, .tokenize (some ['d']) false (some "TEXT".toList)⟩ =
        .ok { Settings.default with batchSize := 1 } := by
    apply Except.toOption_eq_some_iff.mp
    decide +kernel
  have hstdin : piped.Reports disk ["tokenize".toList] false (Report.tokens .text) text :=
    .mk rfl hdefault (.tokenize false) rfl ⟨by decide, by decide⟩
  have hfile : single.Reports disk arguments false (Report.tokens .text) text :=
    .mk rfl hsingle (.tokenizeAs false rfl) rfl ⟨by decide, by decide⟩
  obtain ⟨-, -, hruns⟩ := lines_are_unambiguous
  obtain ⟨-, hprinted, hsame⟩ := hruns piped disk ["tokenize".toList] text hstdin
  obtain ⟨-, hprinted', -⟩ := hruns single disk arguments text hfile
  refine ⟨hstdin, hfile, ?_, ?_⟩
  · rw [hprinted, htokens]
    decide
  · intro text' h'
    exact hsame single disk arguments text' h' (hprinted.trans hprinted'.symm)

end Report

end SqlTokens
