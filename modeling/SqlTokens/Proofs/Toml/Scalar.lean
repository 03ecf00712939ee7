import SqlTokens.Proofs.Text.Number
import SqlTokens.Toml.Scalar

/-!
# Whole numbers of TOML read back

Digits alone are a whole number and nothing else: no word, because a word has a letter
(`AreDigits.ne_of_mem`), and no moment, because there are hyphens in a date and colons in a time of
day (`Moment.mem_of_isMoment`). A number in decimal has no zero in front, so its digits are read as
this number (`scalar?_decimal`).
-/

namespace SqlTokens.Toml

variable {c d : Char} {chars rest : List Char} {n : Nat}

namespace Moment

theorem mem_of_readTwo? (h : readTwo? chars = some (n, rest)) (hd : d ∈ rest) : d ∈ chars := by
  unfold readTwo? at h
  split at h
  · next a b tail =>
    obtain ⟨tens, -, h⟩ := Option.bind_eq_some_iff.mp h
    obtain ⟨ones, -, h⟩ := Option.bind_eq_some_iff.mp h
    cases h
    exact List.mem_cons_of_mem a (List.mem_cons_of_mem b hd)
  · cases h

theorem mem_of_expect? (h : expect? c chars = some rest) : c ∈ chars := by
  unfold expect? at h
  split at h
  · split at h
    · next heq => exact heq ▸ List.mem_cons_self
    · cases h
  · cases h

/-- There are hyphens between the parts of a date. -/
theorem hyphen_mem_of_afterDate? (h : afterDate? chars = some rest) : '-' ∈ chars := by
  obtain ⟨⟨century, chars₁⟩, hcentury, h⟩ := Option.bind_eq_some_iff.mp h
  obtain ⟨⟨year, chars₂⟩, hyear, h⟩ := Option.bind_eq_some_iff.mp h
  obtain ⟨chars₃, hhyphen, -⟩ := Option.bind_eq_some_iff.mp h
  exact mem_of_readTwo? hcentury (mem_of_readTwo? hyear (mem_of_expect? hhyphen))

/-- There is a colon between the parts of a time of day. -/
theorem colon_mem_of_afterTime? (h : afterTime? chars = some rest) : ':' ∈ chars := by
  obtain ⟨⟨hour, chars₁⟩, hhour, h⟩ := Option.bind_eq_some_iff.mp h
  obtain ⟨chars₂, hcolon, -⟩ := Option.bind_eq_some_iff.mp h
  exact mem_of_readTwo? hhour (mem_of_expect? hcolon)

theorem mem_of_isMoment (h : isMoment chars = true) : '-' ∈ chars ∨ ':' ∈ chars := by
  unfold isMoment at h
  split at h
  · exact .inr (colon_mem_of_afterTime? (of_decide_eq_true h))
  · next hdate => exact .inl (hyphen_mem_of_afterDate? hdate)
  · next hdate => exact .inl (hyphen_mem_of_afterDate? hdate)

end Moment

/-- Digits alone. -/
def AreDigits (chars : List Char) : Prop :=
  ∀ c ∈ chars, c.isDigit = true

theorem areDigits_decimal (n : Nat) : AreDigits (Text.decimal n) := by
  intro c hc
  exact Nat.isDigit_of_mem_toDigits (by decide) (by decide) hc

namespace AreDigits

theorem not_mem (h : AreDigits chars) (hc : c.isDigit = false) : c ∉ chars := by
  intro hmem
  rw [h c hmem] at hc
  cases hc

theorem ne_of_mem {word : List Char} (h : AreDigits chars) (hc : c ∈ word)
    (hword : c.isDigit = false) : chars ≠ word := by
  rintro rfl
  exact h.not_mem hword hc

theorem splitSign_eq (h : AreDigits chars) : splitSign chars = (false, chars) := by
  unfold splitSign
  split
  · exact absurd List.mem_cons_self (h.not_mem (by decide))
  · exact absurd List.mem_cons_self (h.not_mem (by decide))
  · rfl

theorem joinDigits?_eq (h : AreDigits chars) (hne : chars ≠ []) :
    joinDigits? Char.isDigit chars = some chars := by
  induction chars with
  | nil => exact absurd rfl hne
  | cons c rest ih =>
    have hc := h c List.mem_cons_self
    have hrest : AreDigits rest := fun d hd => h d (List.mem_cons_of_mem c hd)
    cases rest with
    | nil => simp [joinDigits?, hc]
    | cons d rest =>
      have hd : d ≠ '_' := by
        rintro rfl
        exact absurd (hrest '_' List.mem_cons_self) (by decide)
      rw [joinDigits?.eq_4 _ _ _ (by simp) (by simpa using hd), if_pos hc, ih hrest (by simp)]
      rfl

end AreDigits

theorem joinDecimal?_decimal (n : Nat) : joinDecimal? (Text.decimal n) = some (Text.decimal n) := by
  rw [joinDecimal?, (areDigits_decimal n).joinDigits?_eq Nat.toDigits_ne_nil]
  apply if_neg
  intro hzero
  rw [Bool.and_eq_true, decide_eq_true_eq, decide_eq_true_eq] at hzero
  obtain ⟨hhead, hlength⟩ := hzero
  rw [Text.eq_zero_of_head?_decimal hhead] at hlength
  exact hlength rfl

theorem integer?_decimal (n : Nat) : integer? (Text.decimal n) = some (n : Int) := by
  have hdigits := areDigits_decimal n
  have hread : Text.ofDigits? 10 (Text.decimal n) = some n :=
    Text.ofDigits?_toDigits (by decide) (by decide) n
  unfold integer?
  split
  · next heq => exact absurd (by rw [heq]; simp) (hdigits.not_mem (c := 'x') (by decide))
  · next heq => exact absurd (by rw [heq]; simp) (hdigits.not_mem (c := 'o') (by decide))
  · next heq => exact absurd (by rw [heq]; simp) (hdigits.not_mem (c := 'b') (by decide))
  · rw [hdigits.splitSign_eq, joinDecimal?_decimal]
    simp [hread]

/-- A number in decimal is a whole number and nothing else. -/
theorem scalar?_decimal (n : Nat) : scalar? (Text.decimal n) = some (.integer n) := by
  have hdigits := areDigits_decimal n
  have hmoment : ¬ Moment.isMoment (Text.decimal n) = true := by
    intro h
    rcases Moment.mem_of_isMoment h with hmem | hmem
    · exact hdigits.not_mem (by decide) hmem
    · exact hdigits.not_mem (by decide) hmem
  have hspecial : ¬ isSpecialNumber (Text.decimal n) = true := by
    rw [isSpecialNumber, hdigits.splitSign_eq, Bool.or_eq_true, decide_eq_true_eq,
      decide_eq_true_eq]
    rintro (h | h)
    · exact hdigits.ne_of_mem (c := 'i') (by decide) (by decide) h
    · exact hdigits.ne_of_mem (c := 'n') (by decide) (by decide) h
  rw [scalar?, if_neg (hdigits.ne_of_mem (c := 't') (by decide) (by decide)),
    if_neg (hdigits.ne_of_mem (c := 'f') (by decide) (by decide)), if_neg hmoment,
    if_neg hspecial, integer?_decimal]

end SqlTokens.Toml
