/-!
# Moments in time

A moment is written as a date, a time of day, or both, and both together may tell how far the clock
is off from the time zone of reference. Seconds can be left out. The parts must lie within the
calendar and the clock; a sixty-first second is let through, because some minutes have one.
-/

namespace SqlTokens.Toml.Moment

/-- The value of a digit. -/
def digit? (c : Char) : Option Nat :=
  if c.isDigit then some (c.toNat - '0'.toNat) else none

/-- A number in two digits, and the text behind it. -/
def readTwo? : List Char → Option (Nat × List Char)
  | a :: b :: rest => do pure (10 * (← digit? a) + (← digit? b), rest)
  | _ => none

/-- The text behind a character. -/
def expect? (c : Char) : List Char → Option (List Char)
  | d :: rest => if d = c then some rest else none
  | [] => none

/-- Whether a year has a twenty-ninth of February. -/
def isLeap (year : Nat) : Bool :=
  year % 4 = 0 && (year % 100 ≠ 0 || year % 400 = 0)

/-- The number of days of a month. -/
def daysIn (year month : Nat) : Nat :=
  if month = 2 then if isLeap year then 29 else 28
  else if [4, 6, 9, 11].contains month then 30
  else 31

/-- The text behind a date. -/
def afterDate? (chars : List Char) : Option (List Char) := do
  let (century, chars) ← readTwo? chars
  let (year, chars) ← readTwo? chars
  let (month, chars) ← readTwo? (← expect? '-' chars)
  let (day, chars) ← readTwo? (← expect? '-' chars)
  if 1 ≤ month && month ≤ 12 && 1 ≤ day && day ≤ daysIn (100 * century + year) month then some chars
  else none

/-- The text behind the fraction of a second, if one is given. -/
def afterFraction? : List Char → Option (List Char)
  | '.' :: d :: rest => if d.isDigit then some (rest.dropWhile Char.isDigit) else none
  | '.' :: [] => none
  | chars => some chars

/-- The text behind the seconds of a time of day, if they are given. -/
def afterSeconds? : List Char → Option (List Char)
  | ':' :: rest => do
    let (second, rest) ← readTwo? rest
    if second ≤ 60 then afterFraction? rest else none
  | chars => some chars

/-- The text behind a time of day. -/
def afterTime? (chars : List Char) : Option (List Char) := do
  let (hour, chars) ← readTwo? chars
  let (minute, chars) ← readTwo? (← expect? ':' chars)
  if hour ≤ 23 && minute ≤ 59 then afterSeconds? chars else none

/-- Whether a text is empty or tells how far the clock is off. -/
def isOffset : List Char → Bool
  | [] => true
  | [c] => c = 'Z' || c = 'z'
  | sign :: rest =>
    (sign = '+' || sign = '-') && (do
      let (hour, rest) ← readTwo? rest
      let (minute, rest) ← readTwo? (← expect? ':' rest)
      guard (hour ≤ 23 && minute ≤ 59 && rest.isEmpty)).isSome

/-- Whether a text is a date and nothing else. -/
def isDate (chars : List Char) : Bool :=
  afterDate? chars = some []

/-- Whether a text is a moment. -/
def isMoment (chars : List Char) : Bool :=
  match afterDate? chars with
  | none => afterTime? chars = some []
  | some [] => true
  | some (separator :: rest) =>
    (separator = 'T' || separator = 't' || separator = ' ') && (afterTime? rest).any isOffset

end SqlTokens.Toml.Moment
