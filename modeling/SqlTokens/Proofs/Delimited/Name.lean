import SqlTokens.Proofs.Delimited.Embedding
import SqlTokens.Proofs.Tokenizer.Concatenation

/-!
# Names and the tokens that hold them

A token holds a name if it stands in square brackets or in double quotes and was closed. Writing a
name and reading it back are inverse to one another there: every name comes back from what was
written for it, and every token that holds a name which is not empty is what is written for this
name (`names_and_tokens`).

The two sides decide in different ways where a name ends. Reading it takes the delimiters off both
ends and looks at pairs in between; cutting a text into tokens goes by the runs of closers. What the
rule of the closer has taken is a doubled text in either case, but for a closer that the last
character may be (`eq_double_of_run`).
-/

namespace SqlTokens

namespace Delimited

variable {closer : Char}

/-- What a rule that waits for a closer goes through is a doubled text, and a single closer at the
end if it has come to one. A closer that it has read already counts as if it stood in front. -/
theorem eq_double_of_run {closing last : Bool} {text : List Char}
    (h : (Rule.toCloser closer).run closing text = .running last) :
    ∃ value, (if closing then closer :: text else text) =
      double closer value ++ if last then [closer] else [] := by
  induction text generalizing closing with
  | nil =>
    cases h
    exact ⟨[], by cases last <;> rfl⟩
  | cons c text ih =>
    obtain ⟨next, hanswer, hrun⟩ := Rule.run_cons_eq_running_iff.mp h
    obtain ⟨value, hvalue⟩ := ih hrun
    by_cases hc : c = closer
    · subst hc
      cases closing with
      | false =>
        obtain rfl : true = next := by simpa [Rule.toCloser] using hanswer
        exact ⟨value, hvalue⟩
      | true =>
        obtain rfl : false = next := by simpa [Rule.toCloser] using hanswer
        refine ⟨c :: value, ?_⟩
        simpa [double] using hvalue
    · cases closing with
      | false =>
        obtain rfl : false = next := by simpa [Rule.toCloser, hc] using hanswer
        refine ⟨c :: value, ?_⟩
        simpa [double, hc] using hvalue
      | true => simp [Rule.toCloser, hc] at hanswer

/-- The rule comes out of a doubled text in the state in which it went in. -/
theorem run_double (closer : Char) (value : List Char) :
    (Rule.toCloser closer).run false (double closer value) = .running false := by
  induction value with
  | nil => rfl
  | cons c value ih =>
    rw [double]
    by_cases hc : c = closer
    · rw [if_pos hc]
      refine Rule.run_cons_eq_running_iff.mpr ⟨true, by simp [Rule.toCloser, hc], ?_⟩
      exact Rule.run_cons_eq_running_iff.mpr ⟨false, by simp [Rule.toCloser, hc], ih⟩
    · rw [if_neg hc]
      exact Rule.run_cons_eq_running_iff.mpr ⟨false, by simp [Rule.toCloser, hc], ih⟩

/-- A single closer behind a doubled text is the last of an odd number. -/
theorem countAtEnd_double (closer : Char) (value : List Char) :
    Token.countAtEnd closer (double closer value ++ [closer]) % 2 = 1 := by
  have heven := Rule.eq_countAtEnd_of_run_toCloser (run_double closer value)
  have hnot : ¬Token.countAtEnd closer (double closer value) % 2 = 1 :=
    of_decide_eq_false heven.symm
  rw [Rule.countAtEnd_concat, if_pos rfl]
  omega

theorem decodeName_wrap (form : NameForm) (name : List Char) :
    decodeName (wrap form.opener form.closer name) = name := by
  have hform : NameForm.ofOpener? form.opener = some form := by cases form <;> rfl
  have hlast : (double form.closer name ++ [form.closer]).getLast? = some form.closer :=
    List.getLast?_concat
  simp only [wrap, decodeName, hform, hlast, List.dropLast_concat, ↓reduceIte, undouble_double]

theorem encodeName_of_ne_nil {name : List Char} (h : name ≠ []) (form : NameForm) :
    encodeName form name = wrap form.opener form.closer name := by
  rw [encodeName, if_neg (by simpa using h)]

theorem length_encodeName {name : List Char} (h : name ≠ []) (form : NameForm) :
    2 < (encodeName form name).length := by
  obtain ⟨c, name, rfl⟩ := List.exists_cons_of_ne_nil h
  rw [encodeName_of_ne_nil h, wrap, double]
  split <;> simp

/-- The empty name has no delimiters, and comes back all the same. -/
theorem decodeName_encodeName (form : NameForm) (name : List Char) :
    decodeName (encodeName form name) = name := by
  cases name with
  | nil => rfl
  | cons c name =>
    rw [encodeName_of_ne_nil (List.cons_ne_nil c name)]
    exact decodeName_wrap form (c :: name)

end Delimited

open Delimited

/-- The form in which a token can hold a name, whether or not it was closed. -/
def Token.nameForm? (token : Token) : Option NameForm :=
  match token.kind with
  | .squareString => some .square
  | .quotedString => if token.text.head? = some '"' then some .quotes else none
  | .whitespace | .lineComment | .blockComment | .literal | .symbol => none

namespace Token

variable {token : Token} {form : NameForm}

/-- A token that can hold a name starts with the opener of its form, and what follows is taken by
the rule of the closer as a whole. -/
theorem eq_cons_of_nameForm? (hfirst : first token.text = token)
    (h : token.nameForm? = some form) :
    ∃ body, token.text = form.opener :: body ∧
      (Rule.toCloser form.closer).extent false body = body ∧
      token.delimited? = some (form.closer, body) := by
  obtain ⟨kind, text⟩ := token
  obtain ⟨hkind, hextent⟩ := Token.mk.inj hfirst
  simp only at hkind hextent
  rw [hkind] at hextent
  cases kind with
  | whitespace | lineComment | blockComment | literal | symbol => cases h
  | squareString =>
    obtain rfl := Option.some.inj h
    obtain ⟨body, rfl⟩ := Kind.eq_append_of_ofLookahead hkind rfl
    refine ⟨body, rfl, ?_, rfl⟩
    exact (Rule.extent_toCloser ']' body).trans (List.cons.inj hextent).2
  | quotedString =>
    obtain ⟨hhead, hform⟩ : text.head? = some '"' ∧ NameForm.quotes = form := by
      simpa [nameForm?] using h
    subst hform
    obtain ⟨body, rfl⟩ := List.head?_eq_some_iff.mp hhead
    refine ⟨body, rfl, ?_, by simp [delimited?, NameForm.closer]⟩
    rw [Kind.extent_quotedString (by simp)] at hextent
    exact (Rule.extent_toCloser '"' body).trans (List.cons.inj hextent).2

/-- A closed token that can hold a name is a text between the delimiters of its form. -/
theorem eq_wrap_of_isClosed (hfirst : first token.text = token)
    (h : token.nameForm? = some form) (hclosed : token.isClosed = true) :
    ∃ name, token.text = wrap form.opener form.closer name := by
  obtain ⟨body, htext, hall, hdelimited⟩ := eq_cons_of_nameForm? hfirst h
  obtain ⟨last, hrun⟩ := Rule.exists_running Rule.toCloser_answer_ne_stopAfter hall
  -- The last run of closers is odd, so the rule has come to a closer that stands alone.
  have hlast : last = true := by
    rw [Rule.eq_countAtEnd_of_run_toCloser hrun]
    simpa [isClosed, hdelimited] using hclosed
  obtain ⟨name, hname⟩ := eq_double_of_run hrun
  refine ⟨name, ?_⟩
  rw [htext, wrap]
  simpa [hlast] using hname

/-- A closed token that holds a name which is not empty is what is written for this name. -/
theorem encodeName_decodeName (hfirst : first token.text = token)
    (h : token.nameForm? = some form) (hclosed : token.isClosed = true)
    (hlength : 2 < token.text.length) : encodeName form (decodeName token.text) = token.text := by
  obtain ⟨name, htext⟩ := eq_wrap_of_isClosed hfirst h hclosed
  have hne : name ≠ [] := by
    rintro rfl
    rw [htext] at hlength
    exact absurd hlength (Nat.lt_irrefl 2)
  rw [htext, decodeName_wrap, encodeName_of_ne_nil hne]

end Token

namespace Delimited

theorem nameForm?_encodeName (form : NameForm) {name : List Char} (h : name ≠ []) :
    (Token.mk (Form.name form).kind (encodeName form name)).nameForm? = some form ∧
      (Token.mk (Form.name form).kind (encodeName form name)).isClosed = true := by
  have hodd := countAtEnd_double form.closer name
  rw [encodeName_of_ne_nil h]
  cases form with
  | square => exact ⟨rfl, decide_eq_true hodd⟩
  | quotes => exact ⟨rfl, decide_eq_true hodd⟩

/-- Writing names and reading them back are inverse to one another, between names and the closed
tokens that hold them. Every name, the empty one included, comes back from what was written for it;
a name that is not empty is written as one such token; and each such token of any text, if it has a
character between its delimiters, is what is written for the name that it holds, in the form that
its first character shows. -/
theorem names_and_tokens :
    (∀ form name, decodeName (encodeName form name) = name) ∧
      (∀ form name, name ≠ [] → ∃ token : Token, token.text = encodeName form name ∧
        tokenize (some token.text) false = .ok [token] ∧ token.nameForm? = some form ∧
        token.isClosed = true ∧ 2 < token.text.length) ∧
      ∀ text, ∃ tokens, tokenize (some text) false = .ok tokens ∧
        ∀ token ∈ tokens, ∀ form, token.nameForm? = some form → token.isClosed = true →
          2 < token.text.length →
          token.text.head? = some form.opener ∧
            encodeName form (decodeName token.text) = token.text := by
  refine ⟨decodeName_encodeName, ?_, ?_⟩
  · intro form name hne
    obtain ⟨hform, hclosed⟩ := nameForm?_encodeName form hne
    refine ⟨⟨(Form.name form).kind, encodeName form name⟩, rfl, ?_, hform, hclosed, ?_⟩
    · have htokens : tokensOf ((Form.name form).delimit name ++ []) =
          ⟨(Form.name form).kind, (Form.name form).delimit name⟩ :: tokensOf [] :=
        Form.tokensOf_delimit_append hne (by simp)
      rw [List.append_nil, tokensOf_nil] at htokens
      rw [tokenize_some]
      exact congrArg Except.ok htokens
    · exact length_encodeName hne form
  · intro text
    refine ⟨tokensOf text, tokenize_some text, ?_⟩
    intro token hmem form hform hclosed hlength
    have hfirst := first_text_of_mem hmem
    obtain ⟨body, hcons, -, -⟩ := Token.eq_cons_of_nameForm? hfirst hform
    refine ⟨?_, Token.encodeName_decodeName hfirst hform hclosed hlength⟩
    rw [hcons]
    rfl

/-- Names that are a closer and nothing else: a bracket, and a quote, which opens as well. -/
theorem names_and_tokens_closers :
    let bracket : Token := ⟨.squareString, ['[', ']', ']', ']']⟩
    let quote : Token := ⟨.quotedString, ['"', '"', '"', '"']⟩
    [bracket, quote].map (·.nameForm?) = [some .square, some .quotes] ∧
      [bracket, quote].all (·.isClosed) = true ∧
      tokenize (some ['[', ']', ']', ']', '.', '"', '"', '"', '"']) false =
        .ok [bracket, ⟨.symbol, ['.']⟩, quote] ∧
      encodeName .square (decodeName bracket.text) = bracket.text ∧
      encodeName .quotes (decodeName quote.text) = quote.text ∧
      ∃ token : Token, token.text = encodeName .quotes ['"'] ∧
        tokenize (some token.text) false = .ok [token] := by
  intro bracket quote
  obtain ⟨-, hwritten, hread⟩ := names_and_tokens
  obtain ⟨tokens, htokens, hnames⟩ := hread ['[', ']', ']', ']', '.', '"', '"', '"', '"']
  have hall : tokenize (some ['[', ']', ']', ']', '.', '"', '"', '"', '"']) false =
      .ok [bracket, ⟨.symbol, ['.']⟩, quote] := by
    rw [tokenize_some]
    cbv
  obtain rfl := Except.ok.inj (htokens.symm.trans hall)
  obtain ⟨token, htext, htoken, -⟩ := hwritten .quotes ['"'] (by decide)
  refine ⟨by decide, by decide, hall, ?_, ?_, token, htext, htoken⟩
  · exact (hnames bracket (by simp) .square rfl rfl (by decide)).2
  · exact (hnames quote (by simp) .quotes rfl rfl (by decide)).2

end Delimited

end SqlTokens
