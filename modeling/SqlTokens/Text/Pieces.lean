/-!
# Pieces of a text

A text is cut at every occurrence of a separator. Two separators in a row have an empty piece
between them, so the pieces with separators put back between them are the text again.
-/

namespace SqlTokens.Text

/-- The pieces of a text between the occurrences of a separator. There is one piece at least. -/
def pieces (separator : Char) : List Char → List (List Char)
  | [] => [[]]
  | c :: cs =>
    if c = separator then [] :: pieces separator cs
    else
      match pieces separator cs with
      | [] => [[c]]
      | piece :: later => (c :: piece) :: later

theorem pieces_ne_nil (separator : Char) (text : List Char) : pieces separator text ≠ [] := by
  cases text with
  | nil => simp [pieces]
  | cons c cs =>
    simp only [pieces]
    split
    · simp
    · split <;> simp

/-- A text is cut at its first separator, and the rest is cut on its own. -/
theorem pieces_append_cons {separator : Char} {piece : List Char} (h : separator ∉ piece)
    (text : List Char) :
    pieces separator (piece ++ separator :: text) = piece :: pieces separator text := by
  induction piece with
  | nil => simp [pieces]
  | cons c piece ih =>
    rw [List.mem_cons, not_or] at h
    rw [List.cons_append, pieces, if_neg (Ne.symm h.1), ih h.2]

/-- Texts without the separator that all end with it are the pieces of what they make up together.
Behind the last separator is an empty piece. -/
theorem pieces_flatMap {separator : Char} {texts : List (List Char)}
    (h : ∀ text ∈ texts, separator ∉ text) :
    pieces separator (texts.flatMap (· ++ [separator])) = texts ++ [[]] := by
  induction texts with
  | nil => rfl
  | cons text texts ih =>
    rw [List.flatMap_cons, List.append_assoc, List.singleton_append,
      pieces_append_cons (h text List.mem_cons_self),
      ih fun other hother => h other (List.mem_cons_of_mem text hother)]
    rfl

theorem length_pieces (separator : Char) (text : List Char) :
    (pieces separator text).length = text.count separator + 1 := by
  induction text with
  | nil => rfl
  | cons c cs ih =>
    rw [pieces]
    split
    · next h => rw [h, List.length_cons, ih, List.count_cons_self]
    · next h =>
      rw [List.count_cons_of_ne h]
      cases hpieces : pieces separator cs with
      | nil => exact absurd hpieces (pieces_ne_nil separator cs)
      | cons piece later => rw [← ih, hpieces]; rfl

/-- Nothing is lost but the separators. -/
theorem intercalate_pieces (separator : Char) (text : List Char) :
    [separator].intercalate (pieces separator text) = text := by
  induction text with
  | nil => rfl
  | cons c cs ih =>
    have hne := pieces_ne_nil separator cs
    simp only [pieces]
    split
    · rename_i h
      subst h
      cases hp : pieces c cs with
      | nil => exact absurd hp hne
      | cons piece later => simpa [List.intercalate, hp] using ih
    · cases hp : pieces separator cs with
      | nil => exact absurd hp hne
      | cons piece later =>
        rw [hp] at ih
        cases later <;> simp_all [List.intercalate]

end SqlTokens.Text
