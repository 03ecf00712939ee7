/-!
# Numbers as text

Natural numbers in decimal and in hexadecimal. Decimal numbers are written without leading zeros;
hexadecimal ones are filled with zeros up to a given width.
-/

namespace SqlTokens.Text

/-- A number in decimal. -/
def decimal (n : Nat) : List Char :=
  Nat.toDigits 10 n

/-- A number in hexadecimal with small letters, in at least `width` digits. -/
def hexadecimal (width : Nat) (n : Nat) : List Char :=
  (Nat.toDigits 16 n).leftpad width '0'

/-- The value of a digit in a base of sixteen or less; letters count in either case. -/
def digitValue? (base : Nat) (c : Char) : Option Nat :=
  let value? :=
    if '0' ≤ c && c ≤ '9' then some (c.toNat - '0'.toNat)
    else if 'a' ≤ c && c ≤ 'f' then some (c.toNat - 'a'.toNat + 10)
    else if 'A' ≤ c && c ≤ 'F' then some (c.toNat - 'A'.toNat + 10)
    else none
  value?.filter (· < base)

/-- The number that a nonempty run of digits stands for. -/
def ofDigits? (base : Nat) : List Char → Option Nat
  | [] => none
  | digits => digits.foldlM (fun n c => (digitValue? base c).map (n * base + ·)) 0

/-- The unsigned 64-bit number that a text stands for: digits, which one plus sign may precede. -/
def word? (text : List Char) : Option UInt64 :=
  let digits := if text.head? = some '+' then text.tail else text
  (ofDigits? 10 digits).bind fun n => if n < UInt64.size then some (.ofNat n) else none

end SqlTokens.Text
