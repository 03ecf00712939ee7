/-!
# TOML values

What a TOML document can say about a key. A table remembers how it came to be, and an array whether
it was made by headers, because that decides whether a later line may add to it. Numbers with a
fraction and moments in time keep their spelling, and so does a word that only looks like a number.
-/

namespace SqlTokens.Toml

/-- How a table came to be. -/
inductive Origin where
  /-- A header names it, or it is the document itself. -/
  | header
  /-- A header names a table inside it. -/
  | implied
  /-- A dotted key names something inside it. -/
  | dotted
  /-- It is written between braces. -/
  | inline
  deriving DecidableEq, Repr

/-- A TOML value. -/
inductive Value where
  | string (text : List Char)
  | integer (number : Int)
  /-- A word that looks like a whole number and stands for none. It does harm only where it is
  read. -/
  | misspelt (spelling : List Char)
  | float (spelling : List Char)
  | boolean (truth : Bool)
  | moment (spelling : List Char)
  | array (ofTables : Bool) (items : List Value)
  | table (origin : Origin) (entries : List (List Char × Value))

/-- The entries of a table: its keys in the order in which they first occur, and their values. -/
abbrev Entries := List (List Char × Value)

end SqlTokens.Toml
