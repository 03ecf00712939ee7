import Mathlib.Data.List.Basic
import SqlTokens.Text.Number

/-!
# Reading numbers back

A number that was written with digits is read from them again (`ofDigits?_toDigits`). Zeros in front
of it change nothing, so the same holds of hexadecimal numbers of any width
(`ofDigits?_hexadecimal`). A text that is read as a number consists of digits
(`isSome_digitValue?_of_mem`).
-/

namespace SqlTokens.Text

/-- Read one more digit behind a number. -/
def addDigit? (base n : Nat) (c : Char) : Option Nat :=
  (digitValue? base c).map (n * base + ·)

variable {base m n : Nat} {c : Char} {digits : List Char}

theorem ofDigits?_of_ne_nil (h : digits ≠ []) :
    ofDigits? base digits = digits.foldlM (addDigit? base) 0 := by
  cases digits with
  | nil => exact absurd rfl h
  | cons c digits => rfl

theorem digitValue?_digitChar {d : Nat} (hd : d < base) (hbase : base ≤ 16) :
    digitValue? base (Nat.digitChar d) = some d := by
  have hvalue : ∀ d < 16, digitValue? 16 (Nat.digitChar d) = some d := by decide
  have h16 := hvalue d (by omega)
  rw [digitValue?, Option.filter_eq_some_iff] at h16 ⊢
  exact ⟨h16.1, decide_eq_true hd⟩

theorem addDigit?_digitChar {d : Nat} (hd : d < base) (hbase : base ≤ 16) :
    addDigit? base n (Nat.digitChar d) = some (n * base + d) := by
  rw [addDigit?, digitValue?_digitChar hd hbase, Option.map_some]

theorem ofDigits?_toDigits (hlow : 1 < base) (hhigh : base ≤ 16) (n : Nat) :
    ofDigits? base (Nat.toDigits base n) = some n := by
  rw [ofDigits?_of_ne_nil Nat.toDigits_ne_nil]
  induction n using Nat.strongRecOn with
  | ind n ih =>
    by_cases h : n < base
    · rw [Nat.toDigits_of_lt_base h]
      simp [addDigit?_digitChar h hhigh]
    · have hle : base ≤ n := Nat.le_of_not_lt h
      have hdiv : n / base < n := Nat.div_lt_self (by omega) hlow
      have hmod : n % base < base := Nat.mod_lt n (by omega)
      rw [Nat.toDigits_of_base_le hlow hle, List.foldlM_append, ih (n / base) hdiv]
      simp [addDigit?_digitChar hmod hhigh, Nat.div_add_mod']

theorem ofDigits?_hexadecimal (width n : Nat) : ofDigits? 16 (hexadecimal width n) = some n := by
  have hzeros (k : Nat) : (List.replicate k '0').foldlM (addDigit? 16) 0 = some 0 := by
    induction k with
    | zero => rfl
    | succ k ih => exact ih
  have hread := ofDigits?_toDigits (by decide) (Nat.le_refl 16) n
  rw [ofDigits?_of_ne_nil Nat.toDigits_ne_nil] at hread
  have hne : hexadecimal width n ≠ [] := by simp [hexadecimal, List.leftpad, Nat.toDigits_ne_nil]
  rw [ofDigits?_of_ne_nil hne, hexadecimal, List.leftpad, List.foldlM_append, hzeros]
  exact hread

/-- A number of sixteen bits has four digits. -/
theorem exists_hexadecimal_eq (h : n < 65536) :
    ∃ a b c d, hexadecimal 4 n = [a, b, c, d] := by
  have hdigits : (Nat.toDigits 16 n).length ≤ 4 :=
    (Nat.length_toDigits_le_iff (by decide) (by decide)).mpr h
  have hlength : (hexadecimal 4 n).length = 4 := by
    rw [hexadecimal, List.length_leftpad]
    exact Nat.max_eq_left hdigits
  match hexadecimal 4 n, hlength with
  | [a, b, c, d], _ => exact ⟨a, b, c, d, rfl⟩

theorem digitValue?_toUpper (c : Char) : digitValue? 16 c.toUpper = digitValue? 16 c := by
  by_cases hsmall : 'a'.val ≤ c.val ∧ c.val ≤ 'z'.val
  · have hvalue : ∀ n < 123, 97 ≤ n →
        digitValue? 16 (Char.ofNat n).toUpper = digitValue? 16 (Char.ofNat n) := by decide
    have hc := hvalue c.toNat (Nat.lt_succ_of_le hsmall.2) hsmall.1
    rwa [Char.ofNat_toNat] at hc
  · have hsame : c.toUpper = c := dif_neg hsmall
    rw [hsame]

theorem ofDigits?_map_toUpper (digits : List Char) :
    ofDigits? 16 (digits.map Char.toUpper) = ofDigits? 16 digits := by
  cases digits with
  | nil => rfl
  | cons c digits =>
    rw [ofDigits?_of_ne_nil (by simp), ofDigits?_of_ne_nil (by simp), List.foldlM_map]
    congr 1
    funext n c
    rw [addDigit?, addDigit?, digitValue?_toUpper]

/-- Only zero is written with a zero in front. -/
theorem eq_zero_of_head?_decimal (h : (decimal n).head? = some '0') : n = 0 := by
  induction n using Nat.strongRecOn with
  | ind n ih =>
    by_cases hn : n < 10
    · rw [decimal, Nat.toDigits_of_lt_base hn] at h
      have hzero : ∀ d < 10, [Nat.digitChar d].head? = some '0' → d = 0 := by decide
      exact hzero n hn h
    · have hle : 10 ≤ n := Nat.le_of_not_lt hn
      rw [decimal, Nat.toDigits_of_base_le (by decide) hle,
        List.head?_append_of_ne_nil _ Nat.toDigits_ne_nil] at h
      have hdiv := ih (n / 10) (by omega) h
      omega

theorem isSome_digitValue?_of_foldlM (h : digits.foldlM (addDigit? base) m = some n)
    (hc : c ∈ digits) : (digitValue? base c).isSome = true := by
  induction digits generalizing m with
  | nil => cases hc
  | cons d digits ih =>
    rw [List.foldlM_cons] at h
    obtain ⟨next, hnext, hrest⟩ := Option.bind_eq_some_iff.mp h
    rcases List.mem_cons.mp hc with rfl | hc
    · obtain ⟨value, hvalue, -⟩ := Option.map_eq_some_iff.mp hnext
      rw [hvalue]
      rfl
    · exact ih hrest hc

theorem isSome_digitValue?_of_mem (h : ofDigits? base digits = some n) (hc : c ∈ digits) :
    (digitValue? base c).isSome = true := by
  rw [ofDigits?_of_ne_nil (List.ne_nil_of_mem hc)] at h
  exact isSome_digitValue?_of_foldlM h hc

end SqlTokens.Text
