import SqlTokens.Json.Basic

/-!
# Writing JSON

A value is written in one line without blanks, or spread over lines with an indent of two spaces for
each level of nesting. An empty array or object takes no line of its own in either form.
-/

namespace SqlTokens.Json

/-- The string literal for the text of a string. A string without a text is written as null. -/
def stringLiteral : Option (List Char) → List Char
  | some text => literal text
  | none => "null".toList

mutual

/-- A value in one line. -/
def compact : Json → List Char
  | .null => "null".toList
  | .bool value => (if value then "true" else "false").toList
  | .nat value => Text.decimal value
  | .number spelling => spelling
  | .string text? => stringLiteral text?
  | .array items => '[' :: (compactItems items ++ [']'])
  | .object members => '\x7b' :: (compactMembers members ++ ['\x7d'])

/-- The items of an array, with commas between them. -/
def compactItems : List Json → List Char
  | [] => []
  | item :: items => compact item ++ (if items.isEmpty then [] else ',' :: compactItems items)

/-- The members of an object, with commas between them. -/
def compactMembers : List (Option (List Char) × Json) → List Char
  | [] => []
  | (name, value) :: members =>
    stringLiteral name ++ ':' :: compact value ++
      (if members.isEmpty then [] else ',' :: compactMembers members)

end

/-- A line break and the indent of a level. -/
def newLine (level : Nat) : List Char :=
  '\n' :: List.replicate (2 * level) ' '

mutual

/-- A value spread over lines, as it stands at a level. -/
def prettyAt (level : Nat) : Json → List Char
  | .null => "null".toList
  | .bool value => (if value then "true" else "false").toList
  | .nat value => Text.decimal value
  | .number spelling => spelling
  | .string text? => stringLiteral text?
  | .array items =>
    if items.isEmpty then "[]".toList
    else '[' :: (prettyItems (level + 1) items ++ newLine level ++ [']'])
  | .object members =>
    if members.isEmpty then "\x7b\x7d".toList
    else '\x7b' :: (prettyMembers (level + 1) members ++ newLine level ++ ['\x7d'])

/-- The items of an array, one to a line. -/
def prettyItems (level : Nat) : List Json → List Char
  | [] => []
  | item :: items =>
    newLine level ++ prettyAt level item ++
      (if items.isEmpty then [] else ',' :: prettyItems level items)

/-- The members of an object, one to a line. -/
def prettyMembers (level : Nat) : List (Option (List Char) × Json) → List Char
  | [] => []
  | (name, value) :: members =>
    newLine level ++ stringLiteral name ++ ": ".toList ++ prettyAt level value ++
      (if members.isEmpty then [] else ',' :: prettyMembers level members)

end

/-- A value spread over lines. -/
def pretty (value : Json) : List Char :=
  prettyAt 0 value

end SqlTokens.Json
