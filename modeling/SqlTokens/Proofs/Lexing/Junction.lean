import SqlTokens.Proofs.Lexing.Over
import SqlTokens.Proofs.Lexing.Tokens

/-!
# Where two texts meet

What follows a text can change its last token only, and only to a longer one. `first_append_cons`
says when it does: if the token is over before the next character (`Token.isOverBefore`), it stays
as it is, and if not, it grows.

Two things can make it grow. The next character may settle the kind anew, which takes a token of a
single character (`Joins`, `ofOpening_some`); otherwise the kind stays, and the rule of the kind
goes on behind its opener (`Kind.extent_cases`).
-/

namespace SqlTokens

open Token

namespace Kind

/-- An operator of two characters starts with a symbol, unless its first character is a literal
alone. -/
theorem isSymbol_or_literalJoins {first next : Char} (h : isCompoundOperator first next = true) :
    first = '-' ∨ first = '/' ∨ isSymbolChar first = true ∨ literalJoins [first] next = true := by
  have hall : ∀ pair ∈ compoundOperators, pair.1 = '-' ∨ pair.1 = '/' ∨
      isSymbolChar pair.1 = true ∨ literalJoins [pair.1] pair.2 = true := by decide
  exact hall (first, next) (List.contains_iff_mem.mp h)

theorem ofOpening_of_isSymbolChar {first : Char} (h : isSymbolChar first = true)
    (second : Option Char) : ofOpening first second = .symbol := by
  have hne (c : Char) (hc : isSymbolChar c = false) : first ≠ c := by
    rintro rfl
    rw [h] at hc
    cases hc
  have hminus := hne '-' (by decide)
  have hslash := hne '/' (by decide)
  have hN := hne 'N' (by decide)
  have hquote := hne '"' (by decide)
  have hapostrophe := hne '\'' (by decide)
  have hbracket := hne '[' (by decide)
  simp [ofOpening, hminus, hslash, hN, hquote, hapostrophe, hbracket, h]

/-- A second character changes the kind of a token only where it makes a comment, a national string
or an operator together with the first one. -/
theorem ofOpening_some (first next : Char) :
    ofOpening first (some next) = ofOpening first none ∨ literalJoins [first] next = true ∨
      (first = '-' ∧ next = '-') ∨ (first = '/' ∧ next = '*') := by
  by_cases hminus : first = '-'
  · by_cases hnext : next = '-' <;> simp [ofOpening, hminus, hnext]
  by_cases hslash : first = '/'
  · by_cases hnext : next = '*' <;> simp [ofOpening, hslash, hnext]
  by_cases hN : first = 'N'
  · by_cases hnext : next = '\''
    · exact .inr (.inl (by rw [hN, hnext]; decide))
    · simp [ofOpening, hN, hnext]
  by_cases hcompound : isCompoundOperator first next = true
  · rcases isSymbol_or_literalJoins hcompound with h | h | hsymbol | hjoin
    · exact absurd h hminus
    · exact absurd h hslash
    · rw [ofOpening_of_isSymbolChar hsymbol, ofOpening_of_isSymbolChar hsymbol]
      exact .inl rfl
    · exact .inr (.inl hjoin)
  · simp [ofOpening, hminus, hslash, hN, hcompound]

theorem eq_of_ofLookahead_quotedString {text : List Char} (h : ofLookahead text = .quotedString) :
    (∃ rest, text = 'N' :: '\'' :: rest) ∨ ∃ quote rest, text = quote :: rest ∧ quote ≠ 'N' := by
  match text with
  | [] => cases h
  | c :: rest =>
    by_cases hc : c = 'N'
    · subst hc
      have hrest : rest.head? = some '\'' := by
        by_contra hne
        simp [ofLookahead, ofOpening, hne] at h
      obtain ⟨tail, rfl⟩ := List.head?_eq_some_iff.mp hrest
      exact .inl ⟨tail, rfl⟩
    · exact .inr ⟨c, rest, rfl, hc⟩

/-- The star of the opener closes no comment, so a closed one has four characters at least. -/
theorem isOverBefore_blockComment (body : List Char) (next : Char) :
    (Token.mk .blockComment ('/' :: '*' :: body)).isOverBefore next =
      decide (['*', '/'] <:+ body) := by
  have hsuffix : (4 ≤ ('/' :: '*' :: body).length ∧ ['*', '/'] <:+ '/' :: '*' :: body) ↔
      ['*', '/'] <:+ body := by
    constructor
    · rintro ⟨hlength, hend⟩
      rcases List.suffix_cons_iff.mp hend with heq | hend
      · cases heq
      · rcases List.suffix_cons_iff.mp hend with heq | hend
        · rw [← heq] at hlength
          exact absurd hlength (by decide)
        · exact hend
    · intro hend
      refine ⟨?_, ?_⟩
      · have := hend.length_le
        simp only [List.length_cons, List.length_nil] at this ⊢
        omega
      · exact (hend.trans (List.suffix_cons _ _)).trans (List.suffix_cons _ _)
  rw [isOverBefore, Bool.eq_iff_iff]
  simpa using hsuffix

/-- How a token takes a text that it is the first one of: as a symbol, or as an opener and what a
rule takes behind it. In the second case the rule decides whether the token is over, except that a
single character may be the beginning of something else. -/
inductive ExtentCases (kind : Kind) (text : List Char) : Prop where
  | symbol (eq : kind = .symbol)
  | rule (σ : Type) (rule : Rule σ) (state : σ) (opener body : List Char)
      (text_eq : text = opener ++ body)
      (extent_eq : ∀ more, kind.extent (text ++ more) = opener ++ rule.extent state (body ++ more))
      (over_eq : rule.extent state body = body → ∀ next, literalJoins text next = false →
        (Token.mk kind text).isOverBefore next = rule.isOverBefore state body next)

theorem extent_cases {kind : Kind} {text : List Char} (hne : text ≠ [])
    (h : ofLookahead text = kind) : kind.ExtentCases text := by
  cases kind with
  | symbol => exact .symbol rfl
  | whitespace =>
    refine .rule Unit .blanks () [] text rfl ?_ ?_
    · intro more
      exact (Rule.extent_blanks _).symm
    · intro hall next _
      exact (Rule.isOverBefore_blanks hall).symm
  | lineComment =>
    refine .rule Unit .toLineEnd () [] text rfl ?_ ?_
    · intro more
      exact (Rule.extent_toLineEnd _).symm
    · intro hall next _
      exact (Rule.isOverBefore_toLineEnd hall).symm
  | blockComment =>
    obtain ⟨body, rfl⟩ := eq_append_of_ofLookahead h rfl
    refine .rule Bool .toCommentEnd false ['/', '*'] body rfl ?_ ?_
    · intro more
      exact congrArg (['/', '*'] ++ ·) (Rule.extent_toCommentEnd _).symm
    · intro hall next _
      rw [Rule.isOverBefore_toCommentEnd hall]
      exact isOverBefore_blockComment body next
  | literal =>
    obtain ⟨first, body, rfl⟩ := List.exists_cons_of_ne_nil hne
    refine .rule Unit .word () [first] body rfl ?_ ?_
    · intro more
      exact congrArg (first :: ·) (Rule.extent_word _).symm
    · intro hall next hjoin
      rw [Rule.isOverBefore_word hall]
      simp [isOverBefore, hjoin]
  | squareString =>
    obtain ⟨opener, body, rfl⟩ := List.exists_cons_of_ne_nil hne
    refine .rule Bool (.toCloser ']') false [opener] body rfl ?_ ?_
    · intro more
      exact congrArg (opener :: ·) (Rule.extent_toCloser ']' _).symm
    · intro hall next _
      rw [Rule.isOverBefore_toCloser hall]
      rfl
  | quotedString =>
    rcases eq_of_ofLookahead_quotedString h with ⟨body, rfl⟩ | ⟨quote, body, rfl, hquote⟩
    · refine .rule Bool (.toCloser '\'') false ['N', '\''] body rfl ?_ ?_
      · intro more
        exact congrArg (['N', '\''] ++ ·) (Rule.extent_toCloser '\'' _).symm
      · intro hall next _
        rw [Rule.isOverBefore_toCloser hall]
        rfl
    · refine .rule Bool (.toCloser quote) false [quote] body rfl ?_ ?_
      · intro more
        rw [List.cons_append, extent_quotedString (fun hN => hquote hN.1)]
        exact congrArg (quote :: ·) (Rule.extent_toCloser quote _).symm
      · intro hall next _
        rw [Rule.isOverBefore_toCloser hall]
        simp [isOverBefore, isClosed, delimited?, hquote]

end Kind

namespace Token

/-- Whether two characters are more together than the token that the first one is alone. -/
def Joins (first next : Char) : Prop :=
  literalJoins [first] next = true ∨ (first = '-' ∧ next = '-') ∨ (first = '/' ∧ next = '*')

theorem eq_singleton_of_literalJoins {text : List Char} {next : Char}
    (h : literalJoins text next = true) : ∃ first, text = [first] := by
  have hall : ∀ pair ∈ literalJunctions, ∃ first, pair.1 = [first] := by
    simp [literalJunctions]
  exact hall (text, next) (List.contains_iff_mem.mp h)

theorem first_append_of_joins {opening next : Char} (h : Joins opening next) (more : List Char) :
    (first [opening]).isOverBefore next = false ∧
      1 < (first (opening :: next :: more)).text.length := by
  rcases h with h | ⟨rfl, rfl⟩ | ⟨rfl, rfl⟩
  · have hpairs : (opening = 'N' ∧ next = '\'') ∨ (opening = ':' ∧ next = ':') ∨
        (opening = '!' ∧ next = '<') ∨ (opening = '!' ∧ next = '=') ∨
        (opening = '!' ∧ next = '>') := by
      simpa [literalJoins, literalJunctions] using h
    rcases hpairs with ⟨rfl, rfl⟩ | ⟨rfl, rfl⟩ | ⟨rfl, rfl⟩ | ⟨rfl, rfl⟩ | ⟨rfl, rfl⟩
    · exact ⟨by decide, Nat.succ_lt_succ (Nat.succ_pos _)⟩
    · exact ⟨by decide, Nat.one_lt_two⟩
    · exact ⟨by decide, Nat.one_lt_two⟩
    · exact ⟨by decide, Nat.one_lt_two⟩
    · exact ⟨by decide, Nat.one_lt_two⟩
  · refine ⟨by decide, ?_⟩
    change 1 < (Extent.throughLineEnd ('-' :: '-' :: more)).length
    simp [Extent.throughLineEnd]
  · exact ⟨by decide, Nat.succ_lt_succ (Nat.succ_pos _)⟩

theorem ofLookahead_append_cons {text : List Char} {next : Char} (hne : text ≠ [])
    (h : ∀ opening, text = [opening] → ¬Joins opening next) (more : List Char) :
    Kind.ofLookahead (text ++ next :: more) = Kind.ofLookahead text := by
  match text with
  | [] => exact absurd rfl hne
  | [opening] =>
    rcases Kind.ofOpening_some opening next with heq | hjoins
    · exact heq
    · exact absurd hjoins (h opening rfl)
  | _ :: _ :: _ => rfl

/-- A symbol takes another character into it if the two of them are an operator. -/
theorem symbol_append_cons {text : List Char} {next : Char} (hne : text ≠ [])
    (hall : Kind.extent .symbol text = text)
    (h : ∀ opening, text = [opening] → ¬Joins opening next) (more : List Char) :
    ((Token.mk .symbol text).isOverBefore next = true ∧
        Kind.extent .symbol (text ++ next :: more) = text) ∨
      ((Token.mk .symbol text).isOverBefore next = false ∧
        text.length < (Kind.extent .symbol (text ++ next :: more)).length) := by
  obtain ⟨opening, rest, rfl⟩ := List.exists_cons_of_ne_nil hne
  cases rest with
  | nil =>
    have hjoins := h opening rfl
    cases hcompound : isCompoundOperator opening next with
    | true => exact .inr (by simp [isOverBefore, symbolJoins, Kind.extent, hcompound])
    | false =>
      have hminus : ¬(opening = '-' ∧ next = '-') := fun h => hjoins (.inr (.inl h))
      have hslash : ¬(opening = '/' ∧ next = '*') := fun h => hjoins (.inr (.inr h))
      refine .inl ⟨?_, ?_⟩
      · simpa [isOverBefore, symbolJoins, hcompound] using
          And.intro (not_and_or.mp hminus) (not_and_or.mp hslash)
      · simp [Kind.extent, hcompound]
  | cons second rest => exact .inl ⟨rfl, hall⟩

/-- Whether a token takes another character into it is seen from the token and this character. -/
theorem first_append_cons {text : List Char} (hne : text ≠ []) (hall : (first text).text = text)
    (next : Char) (more : List Char) :
    ((first text).isOverBefore next = true ∧ first (text ++ next :: more) = first text) ∨
      ((first text).isOverBefore next = false ∧
        text.length < (first (text ++ next :: more)).text.length) := by
  -- Only a single character can become a token of another kind; else the kind is settled.
  by_cases hjoins : ∃ opening, text = [opening] ∧ Joins opening next
  · obtain ⟨opening, rfl, hjoins⟩ := hjoins
    exact .inr (first_append_of_joins hjoins more)
  have hnot (opening : Char) (heq : text = [opening]) : ¬Joins opening next :=
    fun h => hjoins ⟨opening, heq, h⟩
  have hliteral : literalJoins text next = false := by
    by_contra h
    rw [Bool.not_eq_false] at h
    obtain ⟨opening, rfl⟩ := eq_singleton_of_literalJoins h
    exact hnot opening rfl (.inl h)
  have hkind := ofLookahead_append_cons hne hnot more
  have htoken : first text = ⟨.ofLookahead text, text⟩ :=
    congrArg (Token.mk (.ofLookahead text)) hall
  have hmore : first (text ++ next :: more) =
      ⟨.ofLookahead text, (Kind.ofLookahead text).extent (text ++ next :: more)⟩ := by
    rw [first, hkind]
  rw [htoken, hmore]
  cases Kind.extent_cases hne rfl with
  | rule σ rule state opener body text_eq extent_eq over_eq =>
    have hbody : rule.extent state body = body := by
      have hself := extent_eq []
      rw [List.append_nil, List.append_nil] at hself
      exact List.append_cancel_left (hself.symm.trans (hall.trans text_eq))
    rw [over_eq hbody next hliteral, extent_eq]
    cases hover : rule.isOverBefore state body next with
    | true =>
      rw [Rule.extent_append_of_isOverBefore hbody hover, ← text_eq]
      exact .inl ⟨rfl, rfl⟩
    | false =>
      have hlonger := Rule.length_lt_extent_append hover more
      refine .inr ⟨rfl, ?_⟩
      rw [congrArg List.length text_eq, List.length_append, List.length_append]
      exact Nat.add_lt_add_left hlonger _
  | symbol eq =>
    rw [eq]
    rcases symbol_append_cons hne (eq ▸ hall) hnot more with ⟨hover, hextent⟩ | hlonger
    · exact .inl ⟨hover, congrArg (Token.mk .symbol) hextent⟩
    · exact .inr hlonger

/-- A token that ends inside a text, or at its end, is the first one of this text as well. -/
theorem first_append_of_le {text more : List Char}
    (h : (first (text ++ more)).text.length ≤ text.length) : first (text ++ more) = first text := by
  match text, more with
  | text, [] => rw [List.append_nil]
  | [], c :: more =>
    have hpos := length_first_text_pos c more
    exact absurd h (Nat.not_le_of_lt hpos)
  | c :: text, next :: more =>
    have hle := (first_text_prefix_self (c :: text)).length_le
    rcases Nat.lt_or_eq_of_le hle with hlt | heq
    · exact first_append_of_lt hlt _
    · have hall := (first_text_prefix_self (c :: text)).eq_of_length heq
      rcases first_append_cons (List.cons_ne_nil c text) hall next more with
        ⟨-, hsame⟩ | ⟨-, hlonger⟩
      · exact hsame
      · exact absurd h (Nat.not_le_of_lt hlonger)

end Token

end SqlTokens
