import SqlTokens.Json.Lexeme

/-!
# Reading JSON

Lexemes are put together to values by a machine that walks over them once. What is still open is
kept on a stack, the innermost array or object first. `Json.read?` accepts exactly one value, with
nothing behind it.
-/

namespace SqlTokens.Json

/-- An array or an object that is still open: the items so far, or the members so far and the name
whose value comes next. The latest stands first. -/
inductive Frame where
  | array (items : List Json)
  | object (members : List (Option (List Char) × Json)) (name : Option (List Char))

mutual

/-- Read on where a value must start. -/
def readValue? : List Lexeme → List Frame → Option Json
  | .scalar value :: rest, stack => readOn? rest value stack
  | .openArray :: .closeArray :: rest, stack => readOn? rest (.array []) stack
  | .openArray :: rest, stack => readValue? rest (.array [] :: stack)
  | .openObject :: .closeObject :: rest, stack => readOn? rest (.object []) stack
  | .openObject :: .scalar (.string name) :: .colon :: rest, stack =>
    readValue? rest (.object [] name :: stack)
  | _, _ => none

/-- Read on behind a value. -/
def readOn? : List Lexeme → Json → List Frame → Option Json
  | [], value, [] => some value
  | .comma :: rest, value, .array items :: stack =>
    readValue? rest (.array (value :: items) :: stack)
  | .closeArray :: rest, value, .array items :: stack =>
    readOn? rest (.array (value :: items).reverse) stack
  | .comma :: .scalar (.string next) :: .colon :: rest, value, .object members name :: stack =>
    readValue? rest (.object ((name, value) :: members) next :: stack)
  | .closeObject :: rest, value, .object members name :: stack =>
    readOn? rest (.object ((name, value) :: members).reverse) stack
  | _, _, _ => none

end

/-- The value that a text stands for. -/
def read? (text : List Char) : Option Json := do
  readValue? (← lexemes? text) []

end SqlTokens.Json
