import SqlTokens.Proofs.Delimited.Name

/-!
# Texts with delimiters at both ends

Reading a name looks at the ends of a text alone. Where the delimiters of a form stand at both of
them they come off, whatever stands in between; any other text is left as it is. Cutting a text into
tokens looks at all of it: the text is a single token only if what stands between the delimiters has
its closers doubled. So reading a name goes further than the tokens do
(`decodeName_goes_by_the_ends`), and takes two names with a dot between them for one
(`decodeName_joins_two_names`).
-/

namespace SqlTokens.Delimited

variable {closer : Char} {form : NameForm} {text inner : List Char}

theorem length_undouble_le (closer : Char) (text : List Char) :
    (undouble closer text).length ≤ text.length := by
  induction text using undouble.induct closer with
  | case1 c d text hboth ih =>
    rw [undouble, if_pos hboth]
    simp only [List.length_cons]
    omega
  | case2 c d text hnot ih =>
    rw [undouble, if_neg hnot]
    simpa using ih
  | case3 text hshort =>
    rw [undouble]
    exact hshort

/-- The delimiters of a form stand at both ends of a text, around another text. -/
def Encloses (form : NameForm) (inner text : List Char) : Prop :=
  text = form.opener :: (inner ++ [form.closer])

theorem NameForm.ofOpener?_opener (form : NameForm) : ofOpener? form.opener = some form := by
  cases form <;> rfl

theorem NameForm.opener_of_ofOpener? {c : Char} (h : ofOpener? c = some form) :
    c = form.opener := by
  rw [ofOpener?] at h
  split at h
  · next hc =>
    cases h
    exact hc
  split at h
  · next hc =>
    cases h
    exact hc
  · cases h

theorem Encloses.decodeName_eq (h : Encloses form inner text) :
    decodeName text = undouble form.closer inner := by
  have hlast : (inner ++ [form.closer]).getLast? = some form.closer := List.getLast?_concat
  rw [h]
  simp only [decodeName, form.ofOpener?_opener, hlast, List.dropLast_concat, ↓reduceIte]

theorem Encloses.decodeName_ne (h : Encloses form inner text) : decodeName text ≠ text := by
  intro heq
  have hshort := length_undouble_le form.closer inner
  have hlength := congrArg List.length heq
  rw [h.decodeName_eq, h] at hlength
  simp only [List.length_cons, List.length_append, List.length_nil] at hlength
  omega

/-- A text is left as it is unless the delimiters of a form stand at both of its ends. -/
theorem decodeName_of_not_encloses (h : ∀ form inner, ¬ Encloses form inner text) :
    decodeName text = text := by
  rw [decodeName.eq_def]
  split
  · rfl
  next c rest =>
  split
  · rfl
  next form hform =>
  split
  · next hlast =>
    obtain ⟨inner, rfl⟩ := List.getLast?_eq_some_iff.mp hlast
    exact absurd (by rw [Encloses, NameForm.opener_of_ofOpener? hform]) (h form inner)
  · rfl

/-- A text is a single token, one that can hold a name and was closed. -/
def IsOneName (text : List Char) : Prop :=
  ∃ token form, tokenize (some text) false = .ok [token] ∧ token.nameForm? = some form ∧
    token.isClosed = true

theorem IsOneName.exists_eq_wrap (h : IsOneName text) :
    ∃ (form : NameForm) (name : List Char), text = wrap form.opener form.closer name := by
  obtain ⟨token, form, htokens, hform, hclosed⟩ := h
  rw [tokenize_some] at htokens
  have hall : tokensOf text = [token] := Except.ok.inj htokens
  have hmem : token ∈ tokensOf text := by
    rw [hall]
    exact List.mem_singleton_self token
  have htext : token.text = text := by
    have hsource := source_tokensOf text
    rw [hall] at hsource
    simpa using hsource
  obtain ⟨name, hname⟩ := Token.eq_wrap_of_isClosed (first_text_of_mem hmem) hform hclosed
  exact ⟨form, name, htext.symm.trans hname⟩

theorem tokensOf_wrap (form : NameForm) (name : List Char) :
    tokensOf (wrap form.opener form.closer name) =
      [⟨(Form.name form).kind, wrap form.opener form.closer name⟩] := by
  by_cases hne : name = []
  · subst hne
    cases form <;> cbv
  · have htokens : tokensOf ((Form.name form).delimit name ++ []) =
        ⟨(Form.name form).kind, (Form.name form).delimit name⟩ :: tokensOf [] :=
      Form.tokensOf_delimit_append hne (by simp)
    rw [List.append_nil, tokensOf_nil] at htokens
    rw [← encodeName_of_ne_nil hne]
    exact htokens

theorem isOneName_wrap (form : NameForm) (name : List Char) :
    IsOneName (wrap form.opener form.closer name) := by
  have hodd := countAtEnd_double form.closer name
  refine ⟨⟨(Form.name form).kind, wrap form.opener form.closer name⟩, form, ?_, ?_, ?_⟩
  · rw [tokenize_some, tokensOf_wrap]
  · cases form <;> rfl
  · cases form <;> exact decide_eq_true hodd

/-- A text between delimiters is a single token if it is what the name that is read from it looks
like between these delimiters. -/
theorem Encloses.isOneName_iff (h : Encloses form inner text) :
    IsOneName text ↔ inner = double form.closer (decodeName text) := by
  constructor
  · intro hone
    obtain ⟨form', name, hwrap⟩ := hone.exists_eq_wrap
    rw [hwrap, decodeName_wrap]
    rw [h, wrap] at hwrap
    obtain ⟨hopener, htail⟩ := List.cons.inj hwrap
    obtain rfl : form = form' := by
      have hform := form.ofOpener?_opener
      rw [hopener, form'.ofOpener?_opener] at hform
      exact (Option.some.inj hform).symm
    exact List.append_cancel_right htail
  · intro hinner
    have hwrap : text = wrap form.opener form.closer (decodeName text) := by
      rw [wrap, ← hinner]
      exact h
    rw [hwrap]
    exact isOneName_wrap form (decodeName text)

/-- Reading a name changes a text exactly if the delimiters of a form stand at both of its ends.
What it makes of the text is what stands between them, with closers in pairs written once. The text
is a single closed token that can hold a name only in some of these cases: what stands between the
delimiters must be the name that was read, with its closers doubled. A text that is left as it is is
no such token. -/
theorem decodeName_goes_by_the_ends (text : List Char) :
    (∃ form inner, Encloses form inner text ∧ decodeName text = undouble form.closer inner ∧
        decodeName text ≠ text ∧ (IsOneName text ↔ inner = double form.closer (decodeName text))) ∨
      ((∀ form inner, ¬ Encloses form inner text) ∧ decodeName text = text ∧ ¬ IsOneName text) := by
  by_cases h : ∃ form inner, Encloses form inner text
  · obtain ⟨form, inner, hencloses⟩ := h
    exact .inl ⟨form, inner, hencloses, hencloses.decodeName_eq, hencloses.decodeName_ne,
      hencloses.isOneName_iff⟩
  · have hnot : ∀ form inner, ¬ Encloses form inner text := by
      intro form inner hencloses
      exact h ⟨form, inner, hencloses⟩
    refine .inr ⟨hnot, decodeName_of_not_encloses hnot, ?_⟩
    intro hone
    obtain ⟨form, name, hwrap⟩ := hone.exists_eq_wrap
    exact hnot form (double form.closer name) hwrap

/-- Two names with a dot between them are three tokens, and are read as one name all the same. -/
theorem decodeName_joins_two_names :
    decodeName "[a].[b]".toList = "a].[b".toList ∧
      tokenize (some "[a].[b]".toList) false = .ok [⟨.squareString, ['[', 'a', ']']⟩,
        ⟨.symbol, ['.']⟩, ⟨.squareString, ['[', 'b', ']']⟩] ∧
      ¬ ∀ text, decodeName text ≠ text → IsOneName text := by
  have htokens : tokensOf "[a].[b]".toList = [⟨.squareString, ['[', 'a', ']']⟩,
      ⟨.symbol, ['.']⟩, ⟨.squareString, ['[', 'b', ']']⟩] := by cbv
  refine ⟨by decide, ?_, ?_⟩
  · rw [tokenize_some, htokens]
  · intro hall
    obtain ⟨token, form, hone, -⟩ := hall "[a].[b]".toList (by decide)
    rw [tokenize_some, htokens] at hone
    cases hone

end SqlTokens.Delimited
