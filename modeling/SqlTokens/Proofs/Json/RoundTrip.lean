import SqlTokens.Json.Printer
import SqlTokens.Json.Reader
import SqlTokens.Proofs.Json.Literal
import SqlTokens.Proofs.Text.Spelling

/-!
# Reading JSON back

A value that is made of texts alone is read from what is written for it, in one line or spread over
lines (`read?_compact`, `read?_pretty`). Writing and reading meet in the lexemes of the value. A
written text spells its lexemes wherever it stands (`Spells`), so blanks and line breaks between
them do not count; and the machine that puts lexemes together comes out of those of a value with
this very value (`readValue?_lexemes`).
-/

namespace SqlTokens.Json

mutual

/-- The lexemes that a value consists of. -/
def lexemes : Json → List Lexeme
  | .array items => .openArray :: (itemLexemes items ++ [.closeArray])
  | .object members => .openObject :: (memberLexemes members ++ [.closeObject])
  | value => [.scalar value]

/-- The lexemes of the items of an array, with commas between the items. -/
def itemLexemes : List Json → List Lexeme
  | [] => []
  | item :: items =>
    lexemes item ++ (if items.isEmpty then [] else .comma :: itemLexemes items)

/-- The lexemes of the members of an object, with commas between the members. -/
def memberLexemes : List (Option (List Char) × Json) → List Lexeme
  | [] => []
  | (name, value) :: members =>
    .scalar (.string name) :: .colon :: (lexemes value ++
      (if members.isEmpty then [] else .comma :: memberLexemes members))

end

/-- A value is made of texts, put together by arrays and by objects whose members have names. -/
inductive IsTextual : Json → Prop where
  | ofText (text : List Char) : IsTextual (.ofText text)
  | array {items : List Json} (each : ∀ item ∈ items, IsTextual item) : IsTextual (.array items)
  | object {members : List (Option (List Char) × Json)}
      (names : ∀ member ∈ members, member.1.isSome = true)
      (values : ∀ member ∈ members, IsTextual member.2) : IsTextual (.object members)

/-- The character that a mark is written as. -/
def Lexeme.char? : Lexeme → Option Char
  | .openArray => some '['
  | .closeArray => some ']'
  | .openObject => some '\x7b'
  | .closeObject => some '\x7d'
  | .comma => some ','
  | .colon => some ':'
  | .scalar _ => none

/-- A text is read as given lexemes, whatever follows it. -/
def Spells (text : List Char) (lexemes : List Lexeme) : Prop :=
  ∀ rest, lexemes? (text ++ rest) = (lexemes? rest).map (lexemes ++ ·)

section Spells

variable {c : Char} {text text' rest after : List Char} {lexeme : Lexeme}
  {spelt spelt' : List Lexeme}

theorem lexemes?_nil : lexemes? [] = some [] := by
  rw [lexemes?]

theorem lexemes?_cons_of_isSpace (h : isSpace c = true) (rest : List Char) :
    lexemes? (c :: rest) = lexemes? rest := by
  rw [lexemes?, if_pos h]

theorem lexemes?_of_readLexeme? (hspace : isSpace c = false)
    (h : readLexeme? (c :: rest) = some (lexeme, after)) :
    lexemes? (c :: rest) = (lexemes? after).map (lexeme :: ·) := by
  rw [lexemes?, if_neg (by simp [hspace])]
  split
  · next hnone =>
    rw [h] at hnone
    cases hnone
  · next lexeme' after' hsome =>
    rw [h] at hsome
    cases hsome
    rfl

theorem lexemes?_of_spells (h : Spells text spelt) : lexemes? text = some spelt :=
  Text.Spells.eq_some h lexemes?_nil

theorem spells_nil : Spells [] [] :=
  Text.Spells.nil

theorem Spells.append (h : Spells text spelt) (h' : Spells text' spelt') :
    Spells (text ++ text') (spelt ++ spelt') :=
  Text.Spells.append h h'

/-- Blanks in front of a text spell nothing. -/
theorem Spells.behind (h : Spells text spelt) {gap : List Char}
    (hgap : ∀ c ∈ gap, isSpace c = true) : Spells (gap ++ text) spelt := by
  induction gap with
  | nil => exact h
  | cons c gap ih =>
    intro rest
    rw [List.cons_append, List.cons_append,
      lexemes?_cons_of_isSpace (hgap c List.mem_cons_self)]
    exact ih (fun d hd => hgap d (List.mem_cons_of_mem c hd)) rest

/-- A mark is spelt by its character, in front of any text. -/
theorem Spells.mark (h : Spells text spelt) (hmark : lexeme.char? = some c) :
    Spells (c :: text) (lexeme :: spelt) := by
  intro rest
  have hspace : isSpace c = false := by cases lexeme <;> cases hmark <;> rfl
  have hread : readLexeme? (c :: (text ++ rest)) = some (lexeme, text ++ rest) := by
    cases lexeme <;> cases hmark <;> rfl
  rw [List.cons_append, lexemes?_of_readLexeme? hspace hread, h rest, Option.map_map]
  rfl

theorem spells_literal (text : List Char) : Spells (literal text) [.scalar (.ofText text)] := by
  intro rest
  have hread : readLexeme? ('"' :: (text.flatMap escape ++ '"' :: rest)) =
      some (.scalar (.ofText text), rest) := by
    simp [readLexeme?, readPieces?_flatMap_escape, textOfPieces?_map_char, ofText]
  have htext : literal text ++ rest = '"' :: (text.flatMap escape ++ '"' :: rest) := by
    simp [literal]
  rw [htext]
  exact lexemes?_of_readLexeme? rfl hread

/-- Parts that are written one after the other with commas between them spell their lexemes with
commas between them. -/
theorem spells_separated {α : Type} {write : List α → List Char} {spell : List α → List Lexeme}
    (part : α → List Char) (spelling : α → List Lexeme)
    (hnil : write [] = [] ∧ spell [] = [])
    (hwrite : ∀ x xs, write (x :: xs) = part x ++ if xs.isEmpty then [] else ',' :: write xs)
    (hspell : ∀ x xs, spell (x :: xs) = spelling x ++ if xs.isEmpty then [] else .comma :: spell xs)
    {xs : List α} (h : ∀ x ∈ xs, Spells (part x) (spelling x)) : Spells (write xs) (spell xs) := by
  induction xs with
  | nil =>
    rw [hnil.1, hnil.2]
    exact spells_nil
  | cons x xs ih =>
    have hfirst := h x List.mem_cons_self
    have hrest := ih fun y hy => h y (List.mem_cons_of_mem x hy)
    rw [hwrite, hspell]
    apply hfirst.append
    cases xs with
    | nil => exact spells_nil
    | cons y ys => exact hrest.mark rfl

end Spells

section Written

variable {value : Json}

theorem spells_stringLiteral {name : Option (List Char)} (h : name.isSome = true) :
    Spells (stringLiteral name) [.scalar (.string name)] := by
  obtain ⟨text, rfl⟩ := Option.isSome_iff_exists.1 h
  exact spells_literal text

theorem isSpace_of_mem_newLine {level : Nat} {c : Char} (h : c ∈ newLine level) :
    isSpace c = true := by
  rcases List.mem_cons.1 h with rfl | h
  · rfl
  · rw [List.eq_of_mem_replicate h]
    rfl

theorem spells_compact (h : IsTextual value) : Spells value.compact value.lexemes := by
  induction h with
  | ofText text => exact spells_literal text
  | @array items each ih =>
    rw [compact, lexemes]
    refine Spells.mark (Spells.append ?_ (spells_nil.mark rfl)) rfl
    exact spells_separated compact lexemes ⟨compactItems.eq_1, itemLexemes.eq_1⟩
      compactItems.eq_2 itemLexemes.eq_2 ih
  | @object members names values ih =>
    rw [compact, lexemes]
    refine Spells.mark (Spells.append ?_ (spells_nil.mark rfl)) rfl
    refine spells_separated (fun member => stringLiteral member.1 ++ ':' :: compact member.2)
      (fun member => .scalar (.string member.1) :: .colon :: lexemes member.2)
      ⟨compactMembers.eq_1, memberLexemes.eq_1⟩
      (fun _ _ => by rw [compactMembers]) (fun _ _ => by rw [memberLexemes]; rfl) ?_
    intro member hmember
    have hname := spells_stringLiteral (names member hmember)
    exact hname.append ((ih member hmember).mark rfl)

theorem spells_prettyAt (h : IsTextual value) (level : Nat) :
    Spells (value.prettyAt level) value.lexemes := by
  induction h generalizing level with
  | ofText text => exact spells_literal text
  | @array items each ih =>
    rw [prettyAt, lexemes]
    split
    · next hempty =>
      rw [List.isEmpty_iff.1 hempty]
      exact (spells_nil.mark rfl).mark rfl
    · rw [List.append_assoc]
      have hclose : Spells (newLine level ++ [']']) [.closeArray] :=
        (spells_nil.mark rfl).behind fun _ => isSpace_of_mem_newLine
      refine Spells.mark (Spells.append ?_ hclose) rfl
      refine spells_separated (fun item => newLine (level + 1) ++ prettyAt (level + 1) item) lexemes
        ⟨prettyItems.eq_1 _, itemLexemes.eq_1⟩ (prettyItems.eq_2 _) itemLexemes.eq_2 ?_
      intro item hitem
      exact (ih item hitem (level + 1)).behind fun _ => isSpace_of_mem_newLine
  | @object members names values ih =>
    rw [prettyAt, lexemes]
    split
    · next hempty =>
      rw [List.isEmpty_iff.1 hempty]
      exact (spells_nil.mark rfl).mark rfl
    · rw [List.append_assoc]
      have hclose : Spells (newLine level ++ ['\x7d']) [.closeObject] :=
        (spells_nil.mark rfl).behind fun _ => isSpace_of_mem_newLine
      refine Spells.mark (Spells.append ?_ hclose) rfl
      refine spells_separated
        (fun member => newLine (level + 1) ++ (stringLiteral member.1 ++
          ([':'] ++ ([' '] ++ prettyAt (level + 1) member.2))))
        (fun member => .scalar (.string member.1) :: .colon :: lexemes member.2)
        ⟨prettyMembers.eq_1 _, memberLexemes.eq_1⟩
        (fun _ _ => by simp [prettyMembers]) (fun _ _ => by rw [memberLexemes]; rfl) ?_
      intro member hmember
      have hname := spells_stringLiteral (names member hmember)
      have hblank : ∀ c ∈ [' '], isSpace c = true := by simp [isSpace]
      have hvalue := (ih member hmember (level + 1)).behind hblank
      exact (hname.append (hvalue.mark rfl)).behind fun _ => isSpace_of_mem_newLine

end Written

section Machine

variable {value : Json} {rest : List Lexeme} {stack : List Frame}

theorem exists_lexemes_eq_cons (value : Json) :
    ∃ first more, value.lexemes = first :: more ∧ first ≠ .closeArray := by
  cases value <;> simp [lexemes]

/-- A value behind an open bracket is the first item of an array. -/
theorem readValue?_openArray (value : Json) :
    readValue? (.openArray :: (value.lexemes ++ rest)) stack =
      readValue? (value.lexemes ++ rest) (.array [] :: stack) := by
  obtain ⟨first, more, heq, hfirst⟩ := exists_lexemes_eq_cons value
  rw [heq, List.cons_append, readValue?]
  intro x hx
  cases hx
  exact hfirst rfl

/-- A list of items is read up to the bracket behind it. -/
theorem readValue?_itemLexemes {item : Json} {items : List Json} (done : List Json)
    (h : ∀ value ∈ item :: items, ∀ rest stack,
      readValue? (value.lexemes ++ rest) stack = readOn? rest value stack) :
    readValue? (itemLexemes (item :: items) ++ .closeArray :: rest) (.array done :: stack) =
      readOn? rest (.array (done.reverse ++ item :: items)) stack := by
  -- An item that has been read goes onto the frame, so the frame grows as the items get fewer.
  induction items generalizing item done with
  | nil =>
    rw [itemLexemes, List.isEmpty_nil, if_pos rfl, List.append_nil, h item (by simp), readOn?]
    simp
  | cons next items ih =>
    have hnext : ∀ value ∈ next :: items, ∀ rest stack,
        readValue? (value.lexemes ++ rest) stack = readOn? rest value stack :=
      fun value hvalue => h value (List.mem_cons_of_mem item hvalue)
    rw [itemLexemes, List.isEmpty_cons, if_neg (by simp), List.append_assoc, h item (by simp),
      List.cons_append, readOn?, ih (item :: done) hnext]
    simp

/-- A list of members is read up to the brace behind it, the name of the first one aside. -/
theorem readValue?_memberLexemes {name : Option (List Char)} {value : Json}
    {members : List (Option (List Char) × Json)} (done : List (Option (List Char) × Json))
    (h : ∀ member ∈ (name, value) :: members, ∀ rest stack,
      readValue? (member.2.lexemes ++ rest) stack = readOn? rest member.2 stack) :
    readValue? (value.lexemes ++ ((if members.isEmpty then [] else
        .comma :: memberLexemes members) ++ .closeObject :: rest)) (.object done name :: stack) =
      readOn? rest (.object (done.reverse ++ (name, value) :: members)) stack := by
  induction members generalizing name value done with
  | nil =>
    rw [h (name, value) (by simp), List.isEmpty_nil, if_pos rfl, List.nil_append, readOn?]
    simp
  | cons next members ih =>
    obtain ⟨name', value'⟩ := next
    have hnext : ∀ member ∈ (name', value') :: members, ∀ rest stack,
        readValue? (member.2.lexemes ++ rest) stack = readOn? rest member.2 stack :=
      fun member hmember => h member (List.mem_cons_of_mem (name, value) hmember)
    rw [h (name, value) (by simp), List.isEmpty_cons, if_neg (by simp), memberLexemes]
    simp only [List.cons_append, List.append_assoc]
    rw [readOn?, ih ((name, value) :: done) hnext]
    simp

/-- The machine comes out of the lexemes of a value with this value. -/
theorem readValue?_lexemes (h : IsTextual value) (rest : List Lexeme) (stack : List Frame) :
    readValue? (value.lexemes ++ rest) stack = readOn? rest value stack := by
  induction h generalizing rest stack with
  | ofText text => rfl
  | @array items each ih =>
    cases items with
    | nil =>
      show readValue? (.openArray :: .closeArray :: rest) stack = _
      rw [readValue?]
    | cons item items =>
      rw [lexemes, List.cons_append, List.append_assoc, List.singleton_append, itemLexemes,
        List.append_assoc, readValue?_openArray, ← List.append_assoc, ← itemLexemes]
      exact readValue?_itemLexemes [] ih
  | @object members names values ih =>
    cases members with
    | nil =>
      show readValue? (.openObject :: .closeObject :: rest) stack = _
      rw [readValue?]
    | cons member members =>
      obtain ⟨name, value⟩ := member
      rw [lexemes, memberLexemes]
      simp only [List.cons_append, List.append_assoc]
      rw [readValue?]
      exact readValue?_memberLexemes [] ih

end Machine

section Reading

variable {value : Json} {text : List Char}

theorem read?_of_spells (h : IsTextual value) (htext : Spells text value.lexemes) :
    read? text = some value := by
  show (lexemes? text).bind (readValue? · []) = _
  rw [lexemes?_of_spells htext, Option.bind_some, ← List.append_nil value.lexemes,
    readValue?_lexemes h, readOn?]

theorem read?_compact (h : IsTextual value) : read? value.compact = some value :=
  read?_of_spells h (spells_compact h)

/-- Blanks behind a value that is spread over lines do not count. -/
theorem read?_pretty (h : IsTextual value) {gap : List Char} (hgap : ∀ c ∈ gap, isSpace c = true) :
    read? (value.pretty ++ gap) = some value := by
  apply read?_of_spells h
  have hbehind := spells_nil.behind hgap
  have htext := (spells_prettyAt h 0).append hbehind
  simpa [pretty] using htext

end Reading

end SqlTokens.Json
