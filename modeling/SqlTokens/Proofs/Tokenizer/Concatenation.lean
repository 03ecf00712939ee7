import SqlTokens.Proofs.Lexer
import SqlTokens.Proofs.Lexing.Junction

/-!
# Texts that are joined and texts that are cut out

Tokens can be told from their neighbours. If two texts are joined, all tokens of the first but its
last one stay as they are, and so does the last one if it is over before the next character
(`tokensOf_append_cases`). If a text is cut where its tokens end, what is cut out has the tokens
that it had in its place (`tokensOf_source_slice`).
-/

namespace SqlTokens

open Token

/-- Behind a text only its last token can change, and it can only grow. -/
theorem tokensOf_append_cases {before : List Char} (hne : before ≠ []) (next : Char)
    (more : List Char) :
    ∃ earlier last, tokensOf before = earlier ++ [last] ∧
      ((last.isOverBefore next = true ∧
          tokensOf (before ++ next :: more) = earlier ++ last :: tokensOf (next :: more)) ∨
        (last.isOverBefore next = false ∧ ∃ token later,
          tokensOf (before ++ next :: more) = earlier ++ token :: later ∧
            last.text.length < token.text.length)) := by
  induction before using token_induction with
  | nil => exact absurd rfl hne
  | cons c text ih =>
    have happend := first_text_append_afterFirst (c :: text)
    have hall : c :: text ++ next :: more = c :: (text ++ next :: more) := rfl
    -- The first token is the last one, or it ended where what follows the text cannot reach it.
    by_cases hrest : afterFirst (c :: text) = []
    · rw [hrest, List.append_nil] at happend
      refine ⟨[], first (c :: text), ?_, ?_⟩
      · rw [tokensOf_cons, hrest, tokensOf_nil, List.nil_append]
      · rcases first_append_cons hne happend next more with ⟨hover, hsame⟩ | ⟨hover, hlonger⟩
        · refine .inl ⟨hover, ?_⟩
          have hbehind := afterFirst_append hsame
          rw [hrest, List.nil_append] at hbehind
          rw [hall, tokensOf_cons, ← hall, hsame, hbehind, List.nil_append]
        · refine .inr ⟨hover, first (c :: text ++ next :: more),
            tokensOf (afterFirst (c :: text ++ next :: more)), ?_, ?_⟩
          · rw [hall, tokensOf_cons, List.nil_append]
          · rwa [happend]
    · have hlt : (first (c :: text)).text.length < (c :: text).length := by
        have hpos := List.length_pos_iff.mpr hrest
        have hlength := congrArg List.length happend
        rw [List.length_append] at hlength
        omega
      have hsame := first_append_of_lt hlt (next :: more)
      obtain ⟨earlier, last, htokens, hcases⟩ := ih hrest
      refine ⟨first (c :: text) :: earlier, last, ?_, ?_⟩
      · rw [tokensOf_cons, htokens, List.cons_append]
      · rw [hall, tokensOf_cons, ← hall, hsame, afterFirst_append hsame]
        rcases hcases with ⟨hover, happended⟩ | ⟨hover, token, later, happended, hlonger⟩
        · exact .inl ⟨hover, by rw [happended, List.cons_append]⟩
        · exact .inr ⟨hover, token, later, by rw [happended, List.cons_append], hlonger⟩

/-- Two texts joined have the tokens of the one and then those of the other if and only if the last
token of the first text is over before the second one. All tokens before this one stay as they are
in any case, and where it is not over, what takes its place is longer. -/
theorem tokenize_append (before : List Char) (next : Char) (after : List Char) (h : before ≠ []) :
    ∃ earlier last following later,
      tokenize (some before) false = .ok (earlier ++ [last]) ∧
        tokenize (some (next :: after)) false = .ok following ∧
        tokenize (some (before ++ next :: after)) false = .ok (earlier ++ later) ∧
        (tokenize (some (before ++ next :: after)) false = .ok (earlier ++ [last] ++ following) ↔
          last.isOverBefore next = true) ∧
        (last.isOverBefore next = false →
          ∃ token rest, later = token :: rest ∧ last.text.length < token.text.length) := by
  obtain ⟨earlier, last, hbefore, hcases⟩ := tokensOf_append_cases h next after
  simp only [tokenize_some, hbefore, Except.ok.injEq]
  rcases hcases with ⟨hover, hall⟩ | ⟨hover, token, rest, hall, hlonger⟩
  · refine ⟨earlier, last, _, _, rfl, rfl, hall, ?_, ?_⟩
    · simp [hall, hover]
    · intro hnot
      rw [hover] at hnot
      cases hnot
  · refine ⟨earlier, last, _, _, rfl, rfl, hall, ?_, ?_⟩
    · rw [hall, hover, List.append_assoc, List.append_cancel_left_eq]
      constructor
      · intro heq
        rw [(List.cons.inj heq).1] at hlonger
        exact absurd hlonger (Nat.lt_irrefl _)
      · intro hfalse
        cases hfalse
    · intro _
      exact ⟨token, rest, rfl, hlonger⟩

/-- A mark of exclamation is a literal alone, and an operator in front of an equals sign. -/
theorem tokenize_append_operator :
    ['a', '!'] ≠ [] ∧ ∃ token rest,
      tokenize (some ['a', '!', '=', 'b']) false = .ok (⟨.literal, ['a']⟩ :: token :: rest) ∧
        1 < token.text.length := by
  have hne : ['a', '!'] ≠ [] := by decide
  obtain ⟨earlier, last, following, later, hbefore, -, hall, -, hlonger⟩ :=
    tokenize_append ['a', '!'] '=' ['b'] hne
  have htokens : tokensOf ['a', '!'] = [⟨.literal, ['a']⟩] ++ [⟨.literal, ['!']⟩] := by cbv
  rw [tokenize_some, htokens, Except.ok.injEq] at hbefore
  obtain ⟨rfl, hlast⟩ := List.append_inj' hbefore rfl
  obtain rfl := (List.cons.inj hlast).1
  obtain ⟨token, rest, rfl, hlt⟩ := hlonger (by decide)
  exact ⟨hne, token, rest, hall, hlt⟩

section Slices

variable {text : List Char} {earlier slice later : List Token}

theorem tokensOf_source_right (h : tokensOf text = earlier ++ slice) :
    tokensOf (source slice) = slice := by
  induction earlier generalizing text with
  | nil =>
    rw [List.nil_append] at h
    rw [← h, source_tokensOf]
  | cons token earlier ih =>
    cases text with
    | nil =>
      rw [tokensOf_nil] at h
      cases h
    | cons c text =>
      rw [tokensOf_cons] at h
      exact ih (List.cons.inj h).2

theorem tokensOf_source_left (h : tokensOf text = slice ++ later) :
    tokensOf (source slice) = slice := by
  induction slice generalizing text with
  | nil => rw [source_nil, tokensOf_nil]
  | cons token slice ih =>
    cases text with
    | nil =>
      rw [tokensOf_nil] at h
      cases h
    | cons c text =>
      have hcut : c :: text = source (token :: slice) ++ source later := by
        rw [← source_append, ← h, source_tokensOf]
      rw [tokensOf_cons] at h
      obtain ⟨htoken, hslice⟩ := List.cons.inj h
      rw [hcut] at htoken
      have hfirst : first (source (token :: slice)) = token := by
        rw [← first_append_of_le, htoken]
        rw [htoken, source_cons, List.length_append]
        exact Nat.le_add_right _ _
      have hrest : afterFirst (source (token :: slice)) = source slice := by
        rw [afterFirst, hfirst, source_cons, List.drop_left]
      have hne : token.text ≠ [] := by
        rw [← htoken, ← hcut]
        exact first_text_ne_nil c text
      obtain ⟨d, ds, hcons⟩ := List.exists_cons_of_ne_nil
        (List.append_ne_nil_of_left_ne_nil hne (source slice))
      rw [← source_cons] at hcons
      rw [hcons, tokensOf_cons, ← hcons, hfirst, hrest, ih hslice]

theorem tokensOf_source_slice (h : slice <:+: tokensOf text) :
    tokensOf (source slice) = slice := by
  obtain ⟨earlier, later, heq⟩ := h
  rw [List.append_assoc] at heq
  exact tokensOf_source_left (tokensOf_source_right heq.symm)

/-- A token is the first one of its own text. -/
theorem first_text_of_mem {token : Token} (h : token ∈ tokensOf text) :
    first token.text = token := by
  obtain ⟨earlier, later, heq⟩ := List.append_of_mem h
  have hone : [token] <:+: tokensOf text := ⟨earlier, later, by rw [heq, List.append_assoc]; rfl⟩
  have htokens := tokensOf_source_slice hone
  rw [source_cons, source_nil, List.append_nil] at htokens
  cases htext : token.text with
  | nil =>
    rw [htext, tokensOf_nil] at htokens
    cases htokens
  | cons c rest =>
    rw [htext, tokensOf_cons] at htokens
    exact (List.cons.inj htokens).1

end Slices

namespace Tokenizer

/-- Tokens that stand next to one another are cut out of a text together with the text between the
first and the last of them, and a run over this text hands out the same tokens again. What stood on
either side is not missed, and it does not matter how many characters are read at a time. -/
theorem run_source_slice (text : List Char) (batch batch' : Nat) (slice : List Token)
    (h : slice <:+: (start (.ofText text) batch false).run.tokens) :
    (start (.ofText (Token.source slice)) batch' false).run.result = .ok slice ∧
      ∀ token ∈ slice, (start (.ofText token.text) batch' false).run.result = .ok [token] := by
  have hresult (text : List Char) (batch : Nat) :
      (start (.ofText text) batch false).run.tokens = tokensOf text ∧
        (start (.ofText text) batch false).run.result = .ok (tokensOf text) := by
    rw [start, run_of_stop?_none batch 0 _ (Source.stop?_ofText text), Source.chars_ofText]
    exact ⟨rfl, rfl⟩
  rw [(hresult text batch).1] at h
  refine ⟨?_, ?_⟩
  · rw [(hresult _ batch').2, tokensOf_source_slice h]
  · intro token hmem
    obtain ⟨earlier, later, heq⟩ := List.append_of_mem hmem
    have hone : [token] <:+: slice := ⟨earlier, later, by rw [heq, List.append_assoc]; rfl⟩
    have htokens := tokensOf_source_slice (hone.trans h)
    rw [source_cons, source_nil, List.append_nil] at htokens
    rw [(hresult _ batch').2, htokens]

/-- A letter that would open a string if an apostrophe came next, and a minus sign that would open a
comment if another one came next, cut out where neither is the case. -/
theorem run_source_slice_openers :
    [⟨.literal, ['N']⟩, ⟨.symbol, ['-']⟩] <:+:
        (start (.ofText ['(', 'N', '-', 'N', '\'', 'a']) 1 false).run.tokens ∧
      (start (.ofText ['N', '-']) 3 false).run.result =
        .ok [⟨.literal, ['N']⟩, ⟨.symbol, ['-']⟩] := by
  have hslice : [⟨.literal, ['N']⟩, ⟨.symbol, ['-']⟩] <:+:
      (start (.ofText ['(', 'N', '-', 'N', '\'', 'a']) 1 false).run.tokens := by
    rw [start, run_of_stop?_none 1 0 _ (Source.stop?_ofText _), Source.chars_ofText]
    exact ⟨[⟨.symbol, ['(']⟩], [⟨.quotedString, ['N', '\'', 'a']⟩], by cbv⟩
  exact ⟨hslice, (run_source_slice ['(', 'N', '-', 'N', '\'', 'a'] 1 3 _ hslice).1⟩

end Tokenizer

end SqlTokens
