import SqlTokens.Json.Literal

/-!
# JSON values

A JSON value as it is written: members of an object keep their order and may share a name, a number
keeps its spelling unless it is a plain count, and a string whose literal names no text has none.
-/

namespace SqlTokens

/-- A JSON value. -/
inductive Json where
  | null
  | bool (value : Bool)
  /-- A number that is written with digits alone. -/
  | nat (value : Nat)
  /-- Any other number, as it is written. -/
  | number (spelling : List Char)
  /-- A string, and the text that it names, if it names one. -/
  | string (text? : Option (List Char))
  | array (items : List Json)
  | object (members : List (Option (List Char) × Json))

namespace Json

/-- A string with a given text. -/
def ofText (text : List Char) : Json :=
  .string (some text)

/-- An object whose members have the given names. -/
def ofMembers (members : List (String × Json)) : Json :=
  .object (members.map fun (name, value) => (some name.toList, value))

/-- The text of a string, if the value is one and names a text. -/
def text? : Json → Option (List Char)
  | .string text? => text?
  | _ => none

/-- The truth value, if the value is one. -/
def bool? : Json → Option Bool
  | .bool value => some value
  | _ => none

/-- The unsigned 64-bit number that the value is, if it is one. -/
def word? : Json → Option UInt64
  | .nat value => if value < UInt64.size then some (.ofNat value) else none
  | _ => none

end Json

end SqlTokens
