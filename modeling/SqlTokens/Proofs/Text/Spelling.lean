/-!
# Spelling

A text spells pieces if they are read from it wherever it stands, so that whatever follows is read
as it would be alone. Then texts can be put together, and each is read as before
(`Spells.append`).
-/

namespace SqlTokens.Text

variable {α : Type} {read? : List Char → Option (List α)} {text text' : List Char}
  {spelt spelt' : List α}

/-- A text is read as given pieces, whatever follows it. -/
def Spells (read? : List Char → Option (List α)) (text : List Char) (spelt : List α) : Prop :=
  ∀ rest, read? (text ++ rest) = (read? rest).map (spelt ++ ·)

theorem Spells.nil : Spells read? [] [] := by
  intro rest
  simp

theorem Spells.append (h : Spells read? text spelt) (h' : Spells read? text' spelt') :
    Spells read? (text ++ text') (spelt ++ spelt') := by
  intro rest
  rw [List.append_assoc, h, h', Option.map_map]
  congr 1
  funext more
  simp

/-- A text that spells pieces is read as these pieces if nothing follows it. -/
theorem Spells.eq_some (h : Spells read? text spelt) (hnil : read? [] = some []) :
    read? text = some spelt := by
  have htext := h []
  rwa [List.append_nil, hnil, Option.map_some, List.append_nil] at htext

end SqlTokens.Text
