import SqlTokens.Toml.Statement

/-!
# TOML documents

The text of a document is cut into lexemes, the lexemes are put together to statements, and the
statements build one table. A mark that tells the byte order of the text may stand before all else.
-/

namespace SqlTokens.Toml

/-- A table that is being built: its entries, and the path of the last header. -/
structure Building where
  root : Entries
  header : List Key

/-- Follow a statement. -/
def Building.follow (building : Building) : Statement → Option Building
  | .table path => do
    pure ⟨← (← Toml.follow openTable path building.root).entries?, path⟩
  | .item path => do
    pure ⟨← (← Toml.follow openItem path building.root).entries?, path⟩
  | .entry path value => do
    pure ⟨← (← insertBelow building.header path value building.root).entries?, building.header⟩

/-- The entries that a list of statements says. -/
def ofStatements? (statements : List Statement) : Option Entries := do
  pure (← statements.foldlM Building.follow ⟨[], []⟩).root

/-- The text behind a mark of byte order, if there is one. -/
def skipByteOrderMark : List Char → List Char
  | c :: rest => if c = '\ufeff' then rest else c :: rest
  | [] => []

/-- The entries that the text of a document says. -/
def read? (text : List Char) : Option Entries := do
  ofStatements? (← statements? (← lexemes? (skipByteOrderMark text)))

end SqlTokens.Toml
