import SqlTokens.Json.Basic
import SqlTokens.Token

/-!
# Tokens as JSON

A token is written as an object with its kind and its text. It can also be read from an array of the
two, and a kind from an object whose only member has the name of the kind and no value. Members with
other names are passed over; a kind or a text that is given twice is refused.
-/

namespace SqlTokens

/-- The kind that a JSON value stands for. -/
def Kind.ofJson? : Json → Option Kind
  | .string (some name) => Kind.ofName? (String.ofList name)
  | .object [(some name, .null)] => Kind.ofName? (String.ofList name)
  | _ => none

namespace Token

/-- The object that a token is written as. -/
def toJson (token : Token) : Json :=
  .ofMembers [("kind", .ofText token.kind.name.toList), ("text", .ofText token.text)]

/-- The array that a list of tokens is written as. -/
def toJsonArray (tokens : List Token) : Json :=
  .array (tokens.map toJson)

/-- Read the members of an object one by one, where `kind?` and `text?` are what was given so far.
-/
def ofMembers? (kind? : Option Kind) (text? : Option (List Char)) :
    List (Option (List Char) × Json) → Option Token
  | [] => do pure ⟨← kind?, ← text?⟩
  | (name?, value) :: members => do
    let name ← name?
    if name = "kind".toList then
      if kind?.isSome then none else ofMembers? (some (← Kind.ofJson? value)) text? members
    else if name = "text".toList then
      if text?.isSome then none else ofMembers? kind? (some (← value.text?)) members
    else ofMembers? kind? text? members

/-- The token that a JSON value stands for. -/
def ofJson? : Json → Option Token
  | .array [kind, text] => do pure ⟨← Kind.ofJson? kind, ← text.text?⟩
  | .object members => ofMembers? none none members
  | _ => none

end Token

end SqlTokens
