import SqlTokens.Json.Literal
import SqlTokens.Proofs.Text.Number

/-!
# Reading string literals back

Each character of a text is read from what is written for it, be it the character itself, a short
escape or a number (`readPieces?_escape`). So a literal names the text that it was written for, and
it ends where it was meant to (`readPieces?_flatMap_escape`, `textOfPieces?_map_char`).
-/

namespace SqlTokens.Json

section Pieces

variable {rest after : List Char} {pieces : List Piece}

/-- A control is read from its number. -/
theorem readPieces?_number {n : Nat} (hn : n < 32) (h : readPieces? rest = some (pieces, after)) :
    readPieces? ('\\' :: 'u' :: (Text.hexadecimal 4 n ++ rest)) =
      some (.char (.ofNat n) :: pieces, after) := by
  have hread := Text.ofDigits?_hexadecimal 4 n
  have hunit : Piece.ofUnit n = .char (.ofNat n) := by
    rw [Piece.ofUnit, if_neg]
    simp only [Bool.and_eq_true, decide_eq_true_eq, not_and]
    omega
  obtain ⟨a, b, c, d, hdigits⟩ := Text.exists_hexadecimal_eq (Nat.lt_trans hn (by decide))
  rw [hdigits] at hread ⊢
  show readPieces? ('\\' :: 'u' :: a :: b :: c :: d :: rest) = _
  rw [readPieces?, hread, h]
  simp [hunit]

theorem readPieces?_escape (c : Char) (h : readPieces? rest = some (pieces, after)) :
    readPieces? (escape c ++ rest) = some (.char c :: pieces, after) := by
  rw [escape]
  split
  · next hc => simp [hc, readPieces?, shortEscape?, h]
  split
  · next hc => simp [hc, readPieces?, shortEscape?, h]
  split
  · next hc => simp [hc, readPieces?, shortEscape?, h]
  split
  · next hc => simp [hc, readPieces?, shortEscape?, h]
  split
  · next hc => simp [hc, readPieces?, shortEscape?, h]
  split
  · next hc => simp [hc, readPieces?, shortEscape?, h]
  split
  · next hc => simp [hc, readPieces?, shortEscape?, h]
  split
  · next hc =>
    have hn : c.toNat < 32 := hc
    simpa using readPieces?_number hn h
  · next _ hbackslash _ _ _ _ _ hc => simp [readPieces?, hbackslash, hc, h]

theorem readPieces?_flatMap_escape (text rest : List Char) :
    readPieces? (text.flatMap escape ++ '"' :: rest) = some (text.map .char, rest) := by
  induction text with
  | nil => rfl
  | cons c text ih =>
    rw [List.flatMap_cons, List.append_assoc]
    exact readPieces?_escape c ih

end Pieces

theorem textOfPieces?_map_char (text : List Char) :
    textOfPieces? (text.map .char) = some text := by
  induction text with
  | nil => rfl
  | cons c text ih => rw [List.map_cons, textOfPieces?, ih, Option.map_some]

end SqlTokens.Json
