import SqlTokens.Text.Number
import SqlTokens.Toml.Moment
import SqlTokens.Toml.Value

/-!
# Unquoted values of TOML

Truth values, whole numbers, numbers with a fraction or an exponent, and moments in time. Digits may
be set apart by single underscores between them. A whole number in decimal may carry a sign and has
no leading zero; one in base sixteen, eight or two carries neither a sign nor a rule about zeros.
A word that resembles a whole number counts as a value, but as one that cannot be read.
-/

namespace SqlTokens.Toml

/-- The digits of a run in which single underscores may stand between digits. -/
def joinDigits? (isDigit : Char → Bool) : List Char → Option (List Char)
  | [] => none
  | [c] => if isDigit c then some [c] else none
  | c :: '_' :: rest => if isDigit c then (joinDigits? isDigit rest).map (c :: ·) else none
  | c :: rest => if isDigit c then (joinDigits? isDigit rest).map (c :: ·) else none

/-- The digits of a decimal number, which start with a zero only if it is the only one. -/
def joinDecimal? (chars : List Char) : Option (List Char) := do
  let digits ← joinDigits? Char.isDigit chars
  if digits.head? = some '0' && chars.length ≠ 1 then none else some digits

/-- Split off the sign of a number, if there is one. The flag says whether it is a minus. -/
def splitSign : List Char → Bool × List Char
  | '+' :: rest => (false, rest)
  | '-' :: rest => (true, rest)
  | chars => (false, chars)

/-- The number that a run of digits of a base stands for. -/
def ofBase? (base : Nat) (chars : List Char) : Option Int := do
  let digits ← joinDigits? (fun c => (Text.digitValue? base c).isSome) chars
  (Text.ofDigits? base digits).map Int.ofNat

/-- The whole number that a text stands for. -/
def integer? : List Char → Option Int
  | '0' :: 'x' :: rest => ofBase? 16 rest
  | '0' :: 'o' :: rest => ofBase? 8 rest
  | '0' :: 'b' :: rest => ofBase? 2 rest
  | chars => do
    let digits ← joinDecimal? (splitSign chars).2
    let n ← Text.ofDigits? 10 digits
    pure (if (splitSign chars).1 then -Int.ofNat n else Int.ofNat n)

/-- A number with a fraction or an exponent, in digits: those before the point, those behind it, and
those of the exponent with its sign. -/
structure Decimal where
  whole : List Char
  fraction : List Char
  exponentIsNegative : Bool
  exponent : List Char
  deriving DecidableEq, Repr

/-- The exponent that a text stands for, behind its letter. -/
def exponent? (chars : List Char) : Option (Bool × List Char) := do
  let digits ← joinDigits? Char.isDigit (splitSign chars).2
  pure ((splitSign chars).1, digits)

/-- Whether a letter announces an exponent. -/
def isExponentLetter (c : Char) : Bool :=
  c = 'e' || c = 'E'

/-- The number with a fraction or an exponent that a text stands for. Its sign is left out. -/
def decimal? (chars : List Char) : Option Decimal := do
  let chars := (splitSign chars).2
  let number := chars.takeWhile (!isExponentLetter ·)
  let (negative, exponent) ← match chars.dropWhile (!isExponentLetter ·) with
    | [] => some (false, [])
    | _ :: rest => exponent? rest
  let whole ← joinDecimal? (number.takeWhile (· ≠ '.'))
  let fraction ← match number.dropWhile (· ≠ '.') with
    | [] => some []
    | _ :: rest => joinDigits? Char.isDigit rest
  if fraction.isEmpty && exponent.isEmpty then none
  else pure ⟨whole, fraction, negative, exponent⟩

/-- The least number that a float of sixty-four bits rounds to infinity: half-way between the
largest finite one and the next power of two. -/
def tooLarge : Nat :=
  (1 <<< 1024) - (1 <<< 970)

/-- Whether a number is within the reach of a float of sixty-four bits. Numbers that are out of
reach by their length alone are not written out. -/
def Decimal.isFinite (d : Decimal) : Bool :=
  let digits := d.whole ++ d.fraction
  let mantissa := Nat.ofDigitChars 10 digits 0
  let power : Int := Nat.ofDigitChars 10 d.exponent 0
  let power := (if d.exponentIsNegative then -power else power) - d.fraction.length
  let size : Int := power + (digits.dropWhile (· = '0')).length
  if mantissa = 0 || size < 300 then true
  else if 320 < size then false
  else if 0 ≤ power then mantissa * Nat.pow 10 power.toNat < tooLarge
  else mantissa < tooLarge * Nat.pow 10 (-power).toNat

/-- Whether a text is the word for an infinite or undefined number. -/
def isSpecialNumber (chars : List Char) : Bool :=
  (splitSign chars).2 = "inf".toList || (splitSign chars).2 = "nan".toList

/-- Whether the spelling of a number with a fraction is within the reach of a float of sixty-four
bits. -/
def isFiniteSpelling (spelling : List Char) : Bool :=
  isSpecialNumber spelling || (decimal? spelling).any Decimal.isFinite

/-- Whether a character is a digit of some base. -/
def isAnyDigit (c : Char) : Bool :=
  (Text.digitValue? 16 c).isSome

/-- Whether each underscore stands between two digits, of whatever base. -/
def separatesDigits : List Char → Bool
  | [] => true
  | '_' :: _ => false
  | [_] => true
  | [_, '_'] => false
  | a :: '_' :: b :: rest => isAnyDigit a && isAnyDigit b && separatesDigits (b :: rest)
  | _ :: b :: rest => separatesDigits (b :: rest)

/-- Whether a word resembles a whole number. It names a base, or it starts as a decimal number does
whose first digits are set apart from the rest. Which characters follow is of no account, as long as
none of them belongs to a fraction or an exponent and the underscores stand right. -/
def resemblesInteger (chars : List Char) : Bool :=
  ["0x", "0o", "0b"].any (·.toList = chars) ||
    let chars := (splitSign chars).2
    chars.head? ≠ some '0' && chars.head?.any Char.isDigit &&
      (chars.dropWhile Char.isDigit).head? = some '_' &&
      chars.all (fun c => c ≠ '.' && !isExponentLetter c) && separatesDigits chars

/-- The unquoted value that a text stands for. -/
def scalar? (chars : List Char) : Option Value :=
  if chars = "true".toList then some (.boolean true)
  else if chars = "false".toList then some (.boolean false)
  else if Moment.isMoment chars then some (.moment chars)
  else if isSpecialNumber chars then some (.float chars)
  else
    match integer? chars with
    | some number => some (.integer number)
    | none =>
      if resemblesInteger chars then some (.misspelt chars)
      else (decimal? chars).map fun _ => .float chars

end SqlTokens.Toml
