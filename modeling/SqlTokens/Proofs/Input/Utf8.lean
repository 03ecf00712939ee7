import Mathlib.Tactic.SplitIfs
import SqlTokens.Input.Utf8

/-!
# Characters as bytes

The byte sequences that the encoding of characters can produce are well-formed (`WellFormed`). A
decoder that has read the bytes of a character accepts them exactly if they are well-formed, and
what it makes of them is the character whose encoding they are (`decode_eq_ok_iff`).
-/

namespace SqlTokens.Utf8

/-- A byte behind the first one of a character. -/
def IsTail (byte : UInt8) : Prop := 0x80 ≤ byte.toNat ∧ byte.toNat < 0xc0

/-- The first byte of a character and the bytes behind it, by their number. The exceptions keep out
long forms of short characters, surrogates, and numbers beyond the last character. -/
inductive WellFormed : UInt8 → List UInt8 → Prop where
  | one {a : UInt8} (ha : a.toNat < 0x80) : WellFormed a []
  | two {a b : UInt8} (ha : 0xc2 ≤ a.toNat ∧ a.toNat < 0xe0) (hb : IsTail b) : WellFormed a [b]
  | three {a b c : UInt8} (ha : 0xe0 ≤ a.toNat ∧ a.toNat < 0xf0) (hb : IsTail b) (hc : IsTail c)
      (short : a.toNat = 0xe0 → 0xa0 ≤ b.toNat) (surrogate : a.toNat = 0xed → b.toNat < 0xa0) :
      WellFormed a [b, c]
  | four {a b c d : UInt8} (ha : 0xf0 ≤ a.toNat ∧ a.toNat < 0xf5) (hb : IsTail b) (hc : IsTail c)
      (hd : IsTail d) (short : a.toNat = 0xf0 → 0x90 ≤ b.toNat)
      (beyond : a.toNat = 0xf4 → b.toNat < 0x90) : WellFormed a [b, c, d]

theorem tailLength?_eq (lead : UInt8) : tailLength? lead =
    if lead.toNat < 0x80 then some 0
    else if 0xc2 ≤ lead.toNat ∧ lead.toNat < 0xe0 then some 1
    else if 0xe0 ≤ lead.toNat ∧ lead.toNat < 0xf0 then some 2
    else if 0xf0 ≤ lead.toNat ∧ lead.toNat < 0xf5 then some 3
    else none := by
  simp only [tailLength?, UInt8.le_iff_toNat_le, Bool.and_eq_true, decide_eq_true_eq]
  simp only [UInt8.toNat_ofNat]
  split_ifs <;> first | rfl | omega

theorem secondBounds_iff (lead byte : UInt8) :
    ((secondBounds lead).1 ≤ byte ∧ byte ≤ (secondBounds lead).2) ↔
      IsTail byte ∧ (lead.toNat = 0xe0 → 0xa0 ≤ byte.toNat) ∧
        (lead.toNat = 0xed → byte.toNat < 0xa0) ∧ (lead.toNat = 0xf0 → 0x90 ≤ byte.toNat) ∧
        (lead.toNat = 0xf4 → byte.toNat < 0x90) := by
  simp only [secondBounds, IsTail, ← UInt8.toNat_inj]
  split_ifs <;> simp only [UInt8.le_iff_toNat_le] <;> simp only [UInt8.toNat_ofNat] at * <;> omega

theorem isTail_iff (byte : UInt8) : (0x80 ≤ byte ∧ byte ≤ 0xbf) ↔ IsTail byte := by
  simp only [IsTail, UInt8.le_iff_toNat_le]
  simp only [UInt8.toNat_ofNat]
  omega

theorem goodLength_le (bounds : UInt8 × UInt8) (bytes : List UInt8) :
    goodLength bounds bytes ≤ bytes.length := by
  induction bytes generalizing bounds with
  | nil => exact Nat.le_refl 0
  | cons byte bytes ih =>
    rw [goodLength]
    split
    · exact Nat.succ_le_succ (ih _)
    · exact Nat.zero_le _

theorem goodLength_cons_iff (bounds : UInt8 × UInt8) (byte : UInt8) (bytes : List UInt8) :
    goodLength bounds (byte :: bytes) = (byte :: bytes).length ↔
      (bounds.1 ≤ byte ∧ byte ≤ bounds.2) ∧ goodLength (0x80, 0xbf) bytes = bytes.length := by
  rw [goodLength]
  by_cases h : bounds.1 ≤ byte ∧ byte ≤ bounds.2 <;> simp [h]

theorem goodLength_tail_iff (bytes : List UInt8) :
    goodLength (0x80, 0xbf) bytes = bytes.length ↔ ∀ byte ∈ bytes, IsTail byte := by
  induction bytes with
  | nil => simp [goodLength]
  | cons byte bytes ih => rw [goodLength_cons_iff, ih, isTail_iff, List.forall_mem_cons]

theorem wellFormed_iff {lead : UInt8} {tail : List UInt8} :
    WellFormed lead tail ↔ tailLength? lead = some tail.length ∧
      goodLength (secondBounds lead) tail = tail.length := by
  rw [tailLength?_eq]
  constructor
  · intro h
    cases h with
    | one ha => exact ⟨if_pos ha, rfl⟩
    | two ha hb =>
      rw [goodLength_cons_iff, secondBounds_iff]
      refine ⟨?_, ⟨hb, by omega, by omega, by omega, by omega⟩, rfl⟩
      rw [if_neg (by omega), if_pos ha]
      rfl
    | three ha hb hc short surrogate =>
      rw [goodLength_cons_iff, secondBounds_iff, goodLength_tail_iff]
      refine ⟨?_, ⟨hb, short, surrogate, by omega, by omega⟩, by simpa using hc⟩
      rw [if_neg (by omega), if_neg (by omega), if_pos ha]
      rfl
    | four ha hb hc hd short beyond =>
      rw [goodLength_cons_iff, secondBounds_iff, goodLength_tail_iff]
      refine ⟨?_, ⟨hb, by omega, by omega, short, beyond⟩, by simpa using ⟨hc, hd⟩⟩
      rw [if_neg (by omega), if_neg (by omega), if_neg (by omega), if_pos ha]
      rfl
  · rintro ⟨hlength, hgood⟩
    match tail with
    | [] =>
      refine .one ?_
      split_ifs at hlength <;> simp_all
    | b :: tail =>
      rw [goodLength_cons_iff, secondBounds_iff, goodLength_tail_iff] at hgood
      obtain ⟨⟨hb, hshort, hsurrogate, hshort', hbeyond⟩, htail⟩ := hgood
      match tail with
      | [] =>
        refine .two ?_ hb
        split_ifs at hlength <;> simp_all
      | [c] =>
        refine .three ?_ hb (htail c (by simp)) hshort hsurrogate
        split_ifs at hlength <;> simp_all
      | [c, d] =>
        refine .four ?_ hb (htail c (by simp)) (htail d (by simp)) hshort' hbeyond
        split_ifs at hlength <;> simp_all
      | _ :: _ :: _ :: _ => split_ifs at hlength <;> simp_all

theorem toNat_val_ofNat {n : Nat} (h : n.isValidChar) : (Char.ofNat n).val.toNat = n := by
  rw [Char.ofNat, dif_pos h]
  rfl

/-- Well-formed bytes are the encoding of the character whose number they hold. -/
theorem utf8EncodeChar_codePoint {lead : UInt8} {tail : List UInt8} (h : WellFormed lead tail) :
    (codePoint lead tail).isValidChar ∧
      String.utf8EncodeChar (.ofNat (codePoint lead tail)) = lead :: tail := by
  have hbyte {n : Nat} (a : UInt8) (hn : n = a.toNat) : UInt8.ofNat n = a := by
    rw [hn, UInt8.ofNat_toNat]
  cases h with
  | one ha =>
    generalize hv : codePoint lead [] = v
    simp only [codePoint] at hv
    have hvalid : v.isValidChar := .inl (by omega)
    refine ⟨hvalid, ?_⟩
    rw [String.utf8EncodeChar, toNat_val_ofNat hvalid]
    rw [if_pos (by omega), hbyte lead hv.symm]
  | @two b ha hb =>
    rw [IsTail] at hb
    generalize hv : codePoint lead [b] = v
    simp only [codePoint] at hv
    have hvalid : v.isValidChar := .inl (by omega)
    refine ⟨hvalid, ?_⟩
    rw [String.utf8EncodeChar, toNat_val_ofNat hvalid]
    rw [if_neg (by omega), if_pos (by omega), hbyte lead (by omega), hbyte b (by omega)]
  | @three b c ha hb hc short surrogate =>
    rw [IsTail] at hb hc
    generalize hv : codePoint lead [b, c] = v
    simp only [codePoint] at hv
    have hvalid : v.isValidChar := by
      rw [Nat.isValidChar]
      omega
    refine ⟨hvalid, ?_⟩
    rw [String.utf8EncodeChar, toNat_val_ofNat hvalid]
    rw [if_neg (by omega), if_neg (by omega), if_pos (by omega), hbyte lead (by omega),
      hbyte b (by omega), hbyte c (by omega)]
  | @four b c d ha hb hc hd short beyond =>
    rw [IsTail] at hb hc hd
    generalize hv : codePoint lead [b, c, d] = v
    simp only [codePoint] at hv
    have hvalid : v.isValidChar := by
      rw [Nat.isValidChar]
      omega
    refine ⟨hvalid, ?_⟩
    rw [String.utf8EncodeChar, toNat_val_ofNat hvalid]
    rw [if_neg (by omega), if_neg (by omega), if_neg (by omega), hbyte lead (by omega),
      hbyte b (by omega), hbyte c (by omega), hbyte d (by omega)]

/-- Every character is encoded in well-formed bytes that hold its number. -/
theorem exists_wellFormed (c : Char) : ∃ lead tail, String.utf8EncodeChar c = lead :: tail ∧
    WellFormed lead tail ∧ codePoint lead tail = c.val.toNat := by
  have hvalid : c.val.toNat < 0xd800 ∨ 0xdfff < c.val.toNat ∧ c.val.toNat < 0x110000 := c.valid
  unfold String.utf8EncodeChar
  generalize c.val.toNat = v at hvalid
  simp only
  have hsmall (n : Nat) (hn : n < 256) : (UInt8.ofNat n).toNat = n := by
    rw [UInt8.toNat_ofNat', Nat.mod_eq_of_lt hn]
  split_ifs with h1 h2 h3
  · refine ⟨_, _, rfl, .one ?_, ?_⟩
    · rw [hsmall _ (by omega)]
      omega
    · exact hsmall v (by omega)
  · have ha := hsmall (v / 64 % 32 + 192) (by omega)
    have hb := hsmall (v % 64 + 128) (by omega)
    refine ⟨_, _, rfl, .two ?_ ?_, ?_⟩
    · omega
    · rw [IsTail]
      omega
    · simp only [codePoint]
      omega
  · have ha := hsmall (v / 4096 % 16 + 224) (by omega)
    have hb := hsmall (v / 64 % 64 + 128) (by omega)
    have hc := hsmall (v % 64 + 128) (by omega)
    refine ⟨_, _, rfl, .three ?_ ?_ ?_ ?_ ?_, ?_⟩
    · omega
    · rw [IsTail]
      omega
    · rw [IsTail]
      omega
    · omega
    · omega
    · simp only [codePoint]
      omega
  · have ha := hsmall (v / 262144 % 8 + 240) (by omega)
    have hb := hsmall (v / 4096 % 64 + 128) (by omega)
    have hc := hsmall (v / 64 % 64 + 128) (by omega)
    have hd := hsmall (v % 64 + 128) (by omega)
    refine ⟨_, _, rfl, .four ?_ ?_ ?_ ?_ ?_ ?_, ?_⟩
    · omega
    · rw [IsTail]
      omega
    · rw [IsTail]
      omega
    · rw [IsTail]
      omega
    · omega
    · omega
    · simp only [codePoint]
      omega

/-- Bytes are decoded to the character that they are the encoding of, and to no other. -/
theorem decode_eq_ok_iff {lead : UInt8} {tail : List UInt8} {c : Char}
    (h : tailLength? lead = some tail.length) :
    decode lead tail = .ok c ↔ String.utf8EncodeChar c = lead :: tail := by
  constructor
  · intro hdecode
    simp only [decode] at hdecode
    split at hdecode
    · cases hdecode
    · rename_i hgood
      have hlength :=
        Nat.le_antisymm (goodLength_le (secondBounds lead) tail) (Nat.le_of_not_lt hgood)
      cases hdecode
      exact (utf8EncodeChar_codePoint (wellFormed_iff.mpr ⟨h, hlength⟩)).2
  · intro hencode
    obtain ⟨lead', tail', heq, hform, hnumber⟩ := exists_wellFormed c
    obtain ⟨rfl, rfl⟩ := List.cons.inj (hencode.symm.trans heq)
    have hgood := (wellFormed_iff.mp hform).2
    simp only [decode, hgood, Nat.lt_irrefl, ↓reduceIte, hnumber]
    exact congrArg Except.ok (Char.ofNat_toNat c)

/-- The encoding of a character is a first byte that says how many others there are. -/
theorem exists_utf8EncodeChar_eq (c : Char) : ∃ lead tail,
    String.utf8EncodeChar c = lead :: tail ∧ tailLength? lead = some tail.length := by
  obtain ⟨lead, tail, heq, hform, -⟩ := exists_wellFormed c
  exact ⟨lead, tail, heq, (wellFormed_iff.mp hform).1⟩

end SqlTokens.Utf8
