import Mathlib.Algebra.GroupWithZero.Nat
import Mathlib.Data.List.Basic
import SqlTokens.Proofs.Report.Lines

/-!
# Counts of tokens

A tally has an entry for each kind of token that was met, in the order in which the kinds were first
met, and no other (`Report.tally_eq`). Its counts add up to the number of tokens
(`Report.sum_tally`), which is also the number of lines of a report that lists them. So the counts
that are printed for an input can be told from its tokens (`Report.counts_agree_with_tokens`).
-/

namespace SqlTokens

section FirstMet

variable {α : Type} [DecidableEq α]

theorem eraseDups_concat (xs : List α) (x : α) :
    (xs ++ [x]).eraseDups = if x ∈ xs then xs.eraseDups else xs.eraseDups ++ [x] := by
  rw [List.eraseDups_append]
  by_cases hx : x ∈ xs
  · simp [List.removeAll, hx]
  · simp [List.removeAll, hx, List.eraseDups_cons]

/-- Without its later repetitions, a list is in the order of first occurrence. -/
theorem pairwise_eraseDups (xs : List α) :
    xs.eraseDups.Pairwise fun x y => xs.idxOf x < xs.idxOf y := by
  induction xs using List.reverseRecOn with
  | nil => exact .nil
  | append_singleton xs x ih =>
    have hkept : xs.eraseDups.Pairwise fun y z => (xs ++ [x]).idxOf y < (xs ++ [x]).idxOf z := by
      apply ih.imp_of_mem
      intro y z hy hz hlt
      rwa [List.idxOf_append_of_mem (List.mem_eraseDups.mp hy),
        List.idxOf_append_of_mem (List.mem_eraseDups.mp hz)]
    rw [eraseDups_concat]
    split
    · exact hkept
    · next hx =>
      apply List.pairwise_append.mpr
      refine ⟨hkept, List.pairwise_singleton .., ?_⟩
      intro y hy z hz
      have hmem : y ∈ xs := List.mem_eraseDups.mp hy
      rw [List.mem_singleton.mp hz, List.idxOf_append_of_mem hmem, List.idxOf_append_of_notMem hx]
      exact Nat.lt_add_right _ (List.idxOf_lt_length_iff.mpr hmem)

theorem nodup_eraseDups (xs : List α) : xs.eraseDups.Nodup := by
  apply (pairwise_eraseDups xs).imp
  rintro x y hlt rfl
  exact Nat.lt_irrefl _ hlt

theorem count_concat (xs : List α) (x y : α) :
    (xs ++ [x]).count y = xs.count y + if y = x then 1 else 0 := by
  rw [List.count_append, List.count_singleton]
  simp only [beq_iff_eq, @eq_comm _ y x]

end FirstMet

namespace Report

variable {kind : Kind} {tokens : List Token}

theorem tally_concat (tokens : List Token) (token : Token) :
    tally (tokens ++ [token]) = (tally tokens).add token.kind := by
  rw [tally, List.foldl_append]
  rfl

namespace Tally

/-- One more token of a kind counts for this kind alone. A kind that was not met before comes last.
-/
theorem add_map {kinds : List Kind} (count : Kind → Nat) (hnodup : kinds.Nodup) :
    add kind (kinds.map fun met => (met, count met)) =
      if kind ∈ kinds then
        kinds.map fun met => (met, count met + if met = kind then 1 else 0)
      else kinds.map (fun met => (met, count met)) ++ [(kind, 1)] := by
  induction kinds with
  | nil => rfl
  | cons met kinds ih =>
    obtain ⟨hmet, hnodup⟩ := List.nodup_cons.mp hnodup
    rw [List.map_cons, add]
    by_cases heq : met = kind
    · subst heq
      have hothers : ∀ other ∈ kinds, (other, count other) =
          (other, count other + if other = met then 1 else 0) := by
        intro other hother
        have hne : other ≠ met := fun h => hmet (h ▸ hother)
        rw [if_neg hne, Nat.add_zero]
      rw [if_pos rfl, if_pos List.mem_cons_self, List.map_cons, if_pos rfl,
        List.map_congr_left hothers]
    · have hmem : kind ∈ met :: kinds ↔ kind ∈ kinds :=
        ⟨fun h => (List.mem_cons.mp h).resolve_left (Ne.symm heq), List.mem_cons_of_mem met⟩
      simp only [if_neg heq, hmem, ih hnodup]
      split
      · rw [List.map_cons, if_neg heq, Nat.add_zero]
      · rfl

theorem sum_add (kind : Kind) (tally : Tally) :
    ((tally.add kind).map Prod.snd).sum = (tally.map Prod.snd).sum + 1 := by
  induction tally with
  | nil => rfl
  | cons entry tally ih =>
    obtain ⟨met, count⟩ := entry
    rw [add]
    split
    · simp only [List.map_cons, List.sum_cons]
      omega
    · simp only [List.map_cons, List.sum_cons, ih]
      omega

end Tally

/-- A tally tells how often each kind was met, in the order in which the kinds were first met. -/
theorem tally_eq (tokens : List Token) :
    let kinds := tokens.map Token.kind
    tally tokens = kinds.eraseDups.map fun kind => (kind, kinds.count kind) := by
  intro kinds
  induction tokens using List.reverseRecOn with
  | nil => rfl
  | append_singleton tokens token ih =>
    rw [tally_concat, ih, Tally.add_map _ (nodup_eraseDups _)]
    simp only [List.mem_eraseDups, kinds, List.map_append, List.map_cons, List.map_nil,
      eraseDups_concat, count_concat]
    split
    · rfl
    · next hnew =>
      rw [List.map_append, List.map_singleton, List.count_eq_zero.mpr hnew, if_pos rfl]
      congr 1
      apply List.map_congr_left
      intro kind hkind
      have hne : kind ≠ token.kind := fun h => hnew (h ▸ List.mem_eraseDups.mp hkind)
      rw [if_neg hne, Nat.add_zero]

theorem sum_tally (tokens : List Token) : ((tally tokens).map Prod.snd).sum = tokens.length := by
  induction tokens using List.reverseRecOn with
  | nil => rfl
  | append_singleton tokens token ih =>
    rw [tally_concat, Tally.sum_add, ih, List.length_append]
    rfl

/-- The line of a count, without the line break. -/
def countEntry (name : String) (count : Nat) : List Char :=
  name.toList ++ '\t' :: Text.decimal count

theorem not_mem_countEntry {name : String} (h : '\n' ∉ name.toList) (count : Nat) :
    '\n' ∉ countEntry name count := by
  intro hmem
  rcases List.mem_append.mp hmem with hname | hcount
  · exact h hname
  · rcases List.mem_cons.mp hcount with htab | hdigit
    · exact absurd htab (by decide)
    · exact absurd (Nat.isDigit_of_mem_toDigits (by decide) (by decide) hdigit) (by decide)

/-- The lines of the printed counts are those of the tally and two more. -/
theorem pieces_counts (tokens : List Token) :
    Text.pieces '\n' (counts tokens) =
      (tally tokens).map (fun (kind, count) => countEntry kind.name count) ++
        [countEntry "tokens" tokens.length, countEntry "chars" (countChars tokens), []] := by
  have hbreak : ∀ text ∈ (tally tokens).map (fun (kind, count) => countEntry kind.name count) ++
      [countEntry "tokens" tokens.length, countEntry "chars" (countChars tokens)], '\n' ∉ text := by
    intro text htext
    rcases List.mem_append.mp htext with hkind | htotal
    · obtain ⟨⟨kind, count⟩, -, rfl⟩ := List.mem_map.mp hkind
      apply not_mem_countEntry
      intro hmem
      exact absurd (Token.isAlpha_of_mem_name hmem) (by decide)
    · rcases List.mem_pair.mp htotal with rfl | rfl
      · exact not_mem_countEntry (by decide) _
      · exact not_mem_countEntry (by decide) _
  have hlines := Text.pieces_flatMap hbreak
  simpa [counts, countLine, countEntry, List.flatMap_map] using hlines

theorem countChars_eq (tokens : List Token) : countChars tokens = (Token.source tokens).length := by
  induction tokens using List.reverseRecOn with
  | nil => rfl
  | append_singleton tokens token ih =>
    rw [countChars, List.foldl_append]
    show countChars tokens + token.text.length = _
    rw [ih, Token.source_append, List.length_append]
    simp

/-- What is skipped and what is kept have the characters of all tokens between them. -/
theorem length_source_significant (tokens : List Token) :
    (Token.source (Token.significant tokens)).length +
      (Token.source (tokens.filter Token.isSundry)).length = (Token.source tokens).length := by
  have hperm := (List.filter_append_perm Token.isSundry tokens).flatMap_right Token.text
  have hlength : (Token.source (tokens.filter Token.isSundry) ++
      Token.source (Token.significant tokens)).length = (Token.source tokens).length := by
    rw [← Token.source_append]
    exact hperm.length_eq
  rwa [List.length_append, Nat.add_comm] at hlength

/-- The counts that a run prints agree with the tokens of its input. There is one line for each kind
that occurs and for no other, in the order of first occurrence, and it tells how many tokens are of
this kind. Then a line tells the sum of these counts, and this is how many lines any run prints that
lists the same tokens. The last line tells how many characters the tokens have. These are all
characters of the input, less those of the blanks and comments if they are skipped. -/
theorem counts_agree_with_tokens {σ : Type} {machine : Machine σ} {files : σ}
    {arguments : List (List Char)} {skipSundry : Bool} {text : List Char}
    (h : machine.Reports files arguments skipSundry counts text) :
    let outcome := machine.run files arguments
    let kept := tokensKept skipSundry text
    let kinds := kept.map Token.kind
    let met := kinds.eraseDups
    let total := (met.map kinds.count).sum
    let chars := (Token.source kept).length
    outcome.ending = .succeeded ∧ tokenize (some text) skipSundry = .ok kept ∧
      (∀ kind, kind ∈ met ↔ kind ∈ kinds) ∧
      met.Pairwise (fun kind kind' => kinds.idxOf kind < kinds.idxOf kind') ∧
      Text.pieces '\n' outcome.printed =
        met.map (fun kind => countEntry kind.name (kinds.count kind)) ++
          [countEntry "tokens" total, countEntry "chars" chars, []] ∧
      (∀ {τ : Type} (machine' : Machine τ) files' arguments',
        machine'.Reports files' arguments' skipSundry (Report.tokens .text) text →
        (machine'.run files' arguments').printed.count '\n' = total) ∧
      (skipSundry = false → chars = text.length) ∧
      (skipSundry = true →
        chars + (Token.source ((tokensOf text).filter Token.isSundry)).length = text.length) := by
  intro outcome kept kinds met total chars
  have htally : tally kept = met.map fun kind => (kind, kinds.count kind) := tally_eq kept
  have htotal : total = kept.length := by
    rw [← sum_tally, htally, List.map_map]
    rfl
  refine ⟨h.ending_eq, Lexer.result_readText (.basic skipSundry) text,
    fun kind => List.mem_eraseDups, pairwise_eraseDups kinds, ?_, ?_, ?_, ?_⟩
  · rw [h.printed_eq, pieces_counts, htally, List.map_map, countChars_eq, htotal]
    rfl
  · intro τ machine' files' arguments' h'
    have hlines : (Text.pieces '\n' (lines kept)).length = kept.length + 1 := by
      rw [pieces_lines, List.length_append, List.length_map]
      rfl
    rw [Text.length_pieces] at hlines
    rw [h'.printed_eq, htotal]
    exact Nat.succ.inj hlines
  · rintro rfl
    exact congrArg List.length (source_tokensOf text)
  · rintro rfl
    have hall := length_source_significant (tokensOf text)
    rwa [source_tokensOf] at hall

/-- Three tokens and a blank that is skipped, the first token a letter of two bytes that come in one
by one. The same tokens of a file take three lines. -/
theorem counts_agree_with_tokens_skipping :
    let text := ['é', ' ', 'a', ',']
    let bytes : List UInt8 := [0xc3, 0xa9, 0x20, 0x61, 0x2c]
    let machine := Disk.machine [] (.ofChunks [.data [0xc3], .data [0xa9, 0x20, 0x61, 0x2c]])
    let disk : Disk := ⟨[], [], [([['d']], bytes)]⟩
    let arguments := ["stats".toList, "-s".toList]
    let listing := ["tokenize".toList, "-s".toList, "d".toList]
    machine.Reports disk arguments true counts text ∧
      machine.Reports disk listing true (Report.tokens .text) text ∧
      Text.pieces '\n' (machine.run disk arguments).printed =
        ["Literal\t2".toList, "Symbol\t1".toList, "tokens\t3".toList, "chars\t3".toList, []] ∧
      (machine.run disk listing).printed.count '\n' = 3 := by
  intro text bytes machine disk arguments listing
  have hkept : tokensKept true text =
      [⟨.literal, ['é']⟩, ⟨.literal, ['a']⟩, ⟨.symbol, [',']⟩] := by cbv
  have hstats : (machine.surroundings disk).settings ⟨none, none, .stats none true⟩ =
      .ok .default := rfl
  have hlist : (machine.surroundings disk).settings
      ⟨none, none, .tokenize (some ['d']) true none⟩ = .ok .default := rfl
  have hcounts : machine.Reports disk arguments true counts text :=
    .mk rfl hstats (.stats true) rfl ⟨by decide, by decide⟩
  have hlisting : machine.Reports disk listing true (Report.tokens .text) text :=
    .mk rfl hlist (.tokenize true) rfl ⟨by decide, by decide⟩
  obtain ⟨-, -, -, -, hprinted, hlines, -, -⟩ := counts_agree_with_tokens hcounts
  rw [hkept] at hprinted hlines
  refine ⟨hcounts, hlisting, ?_, ?_⟩
  · rw [hprinted]
    decide
  · rw [hlines machine disk listing hlisting]
    decide

end Report

end SqlTokens
