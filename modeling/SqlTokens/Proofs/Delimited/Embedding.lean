import SqlTokens.Delimited
import SqlTokens.Proofs.Lexer

/-!
# Embedding a value in a text

A value between delimiters can be put into a text without anyone looking at it. It is read as one
token, and the text around it is read as if the value were not there, provided that the text before
it lets a token start with the opener and the text behind it does not start with the closer.

What makes this work is that doubling leaves an even number of closers wherever the value has some,
so that the first run of odd length is the one which holds the closer at the end.
-/

namespace SqlTokens.Delimited

/-- The ways to put a value between delimiters: as a name, or as a string. -/
inductive Form where
  | name (form : NameForm)
  | string (national : Bool)
  deriving DecidableEq, Repr

namespace Form

/-- A value between the delimiters of a form. -/
def delimit : Form → List Char → List Char
  | name form, value => encodeName form value
  | string national, value => quoteString national value

/-- The first character of what a form makes of a value. -/
def opener : Form → Char
  | name form => form.opener
  | string national => if national then 'N' else '\''

/-- The character that closes a form. -/
def closer : Form → Char
  | name form => form.closer
  | string _ => '\''

/-- The kind of token that a form is read as. -/
def kind : Form → Kind
  | name .square => .squareString
  | name .quotes | string _ => .quotedString

/-- Whether a value can be put between the delimiters of a form. There are no delimiters around the
empty name. -/
def Admits : Form → List Char → Prop
  | name _, value => value ≠ []
  | string _, _ => True

end Form

/-- A doubled text and its closer end where they are meant to. -/
theorem throughOddRun_double {closer : Char} {after : List Char}
    (hafter : after.head? ≠ some closer) (value : List Char) :
    Extent.throughOddRun closer (double closer value ++ closer :: after) =
      double closer value ++ [closer] := by
  induction value with
  | nil => exact Extent.throughOddRun_single hafter
  | cons c value ih =>
    rw [double]
    by_cases hc : c = closer
    · rw [if_pos hc, hc, List.cons_append, List.cons_append, Extent.throughOddRun_pair, ih,
        List.cons_append, List.cons_append]
    · rw [if_neg hc, List.cons_append, Extent.throughOddRun_of_ne hc, ih, List.cons_append]

namespace Form

variable {form : Form} {value : List Char}

/-- What a form makes of a value is an opener, the value with its closers doubled, and a closer. -/
theorem delimit_eq (h : form.Admits value) :
    ∃ opening, form.delimit value = opening ++ double form.closer value ++ [form.closer] ∧
      opening.head? = some form.opener ∧
      ∀ rest, Token.first (opening ++ rest) =
        ⟨form.kind, opening ++ Extent.throughOddRun form.closer rest⟩ := by
  cases form with
  | name form =>
    have hempty : value.isEmpty = false := by simpa [Admits] using h
    refine ⟨[form.opener], ?_, rfl, ?_⟩
    · simp [delimit, encodeName, hempty, wrap, closer]
    · intro rest
      cases form with
      | square => rfl
      | quotes =>
        have hquote : ¬('"' = 'N' ∧ rest.head? = some '\'') := by simp
        exact congrArg (Token.mk .quotedString) (Kind.extent_quotedString hquote)
  | string national =>
    cases national with
    | false =>
      refine ⟨['\''], ?_, rfl, ?_⟩
      · simp [delimit, quoteString, wrap, closer]
      · intro rest
        have hquote : ¬('\'' = 'N' ∧ rest.head? = some '\'') := by simp
        exact congrArg (Token.mk .quotedString) (Kind.extent_quotedString hquote)
    | true =>
      refine ⟨['N', '\''], ?_, rfl, ?_⟩
      · simp [delimit, quoteString, wrap, closer]
      · intro rest
        rfl

/-- A value between delimiters is one token, whatever the value is. -/
theorem tokensOf_delimit_append {after : List Char} (h : form.Admits value)
    (hafter : after.head? ≠ some form.closer) :
    tokensOf (form.delimit value ++ after) =
      ⟨form.kind, form.delimit value⟩ :: tokensOf after := by
  obtain ⟨opening, hdelimit, hhead, hfirst⟩ := delimit_eq h
  have hall : form.delimit value ++ after =
      opening ++ (double form.closer value ++ form.closer :: after) := by
    simp [hdelimit]
  have htoken : Token.first (form.delimit value ++ after) =
      ⟨form.kind, form.delimit value⟩ := by
    rw [hall, hfirst, throughOddRun_double hafter, hdelimit, List.append_assoc]
  have hrest : Token.afterFirst (form.delimit value ++ after) = after := by
    rw [Token.afterFirst, htoken, List.drop_left]
  obtain ⟨c, text, hcons⟩ : ∃ c text, form.delimit value ++ after = c :: text := by
    obtain ⟨tail, rfl⟩ := List.head?_eq_some_iff.mp hhead
    exact ⟨_, _, hall⟩
  rw [hcons, tokensOf_cons, ← hcons, htoken, hrest]

theorem head?_delimit (h : form.Admits value) :
    (form.delimit value).head? = some form.opener := by
  obtain ⟨opening, hdelimit, hhead, -⟩ := delimit_eq h
  obtain ⟨tail, rfl⟩ := List.head?_eq_some_iff.mp hhead
  rw [hdelimit]
  rfl

theorem getLast?_delimit (h : form.Admits value) :
    (form.delimit value).getLast? = some form.closer := by
  obtain ⟨opening, hdelimit, -, -⟩ := delimit_eq h
  rw [hdelimit, List.getLast?_append]
  rfl

/-- What stands before an embedded value keeps its tokens if the opener alone leaves them alone. -/
theorem tokensOf_append_delimit_append {before after : List Char} (h : form.Admits value)
    (hbefore : tokensOf before <+: tokensOf (before ++ [form.opener]))
    (hafter : after.head? ≠ some form.closer) :
    tokensOf (before ++ form.delimit value ++ after) =
      tokensOf before ++ ⟨form.kind, form.delimit value⟩ :: tokensOf after := by
  obtain ⟨tail, htail⟩ := List.head?_eq_some_iff.mp (head?_delimit h)
  rw [← tokensOf_delimit_append h hafter, List.append_assoc, htail, List.cons_append]
  exact tokensOf_append hbefore (tail ++ after)

end Form

/-- A value between delimiters never changes how the text around it is read: the tokens before and
behind it are found before the value is known, and the value is a single token between them. -/
theorem tokenize_embedded (form : Form) (before after : List Char)
    (hbefore : ∀ tokens extended, tokenize (some before) false = .ok tokens →
      tokenize (some (before ++ [form.opener])) false = .ok extended → tokens <+: extended)
    (hafter : after.head? ≠ some form.closer) :
    ∃ tokens later, tokenize (some before) false = .ok tokens ∧
      tokenize (some after) false = .ok later ∧
      ∀ value, form.Admits value →
        (form.delimit value).head? = some form.opener ∧
          (form.delimit value).getLast? = some form.closer ∧
          tokenize (some (before ++ form.delimit value ++ after)) false =
            .ok (tokens ++ ⟨form.kind, form.delimit value⟩ :: later) := by
  refine ⟨tokensOf before, tokensOf after, tokenize_some before, tokenize_some after, ?_⟩
  intro value h
  have hopener := hbefore _ _ (tokenize_some before) (tokenize_some _)
  refine ⟨Form.head?_delimit h, Form.getLast?_delimit h, ?_⟩
  rw [tokenize_some, Form.tokensOf_append_delimit_append h hopener hafter]

/-- A value that tries to close its string, to add a condition and to comment out the rest. -/
theorem tokenize_embedded_hostile_value :
    tokenize (some ("x=".toList ++ (Form.string true).delimit "' OR 1=1 --".toList ++
      " --y".toList)) false =
      .ok [⟨.literal, "x".toList⟩, ⟨.symbol, "=".toList⟩,
        ⟨.quotedString, "N''' OR 1=1 --'".toList⟩, ⟨.whitespace, " ".toList⟩,
        ⟨.lineComment, "--y".toList⟩] := by
  have hx : tokensOf "x=".toList = [⟨.literal, ['x']⟩, ⟨.symbol, ['=']⟩] := by cbv
  have hxN : tokensOf "x=N".toList = [⟨.literal, ['x']⟩, ⟨.symbol, ['=']⟩, ⟨.literal, ['N']⟩] := by
    cbv
  have hy : tokensOf " --y".toList =
      [⟨.whitespace, [' ']⟩, ⟨.lineComment, ['-', '-', 'y']⟩] := by cbv
  have hbefore : ∀ tokens extended, tokenize (some "x=".toList) false = .ok tokens →
      tokenize (some ("x=".toList ++ [(Form.string true).opener])) false = .ok extended →
      tokens <+: extended := by
    intro tokens extended htokens hextended
    rw [tokenize_some, hx] at htokens
    rw [tokenize_some, show "x=".toList ++ [(Form.string true).opener] = "x=N".toList from rfl,
      hxN] at hextended
    cases htokens
    cases hextended
    exact ⟨[⟨.literal, ['N']⟩], rfl⟩
  obtain ⟨tokens, later, htokens, hlater, hvalue⟩ :=
    tokenize_embedded (.string true) "x=".toList " --y".toList hbefore (by decide)
  rw [tokenize_some, hx] at htokens
  rw [tokenize_some, hy] at hlater
  cases htokens
  cases hlater
  exact (hvalue "' OR 1=1 --".toList trivial).2.2

end SqlTokens.Delimited
