import SqlTokens.Toml.Value

/-!
# Tables of TOML

A table grows line by line. A dotted key or a header goes through the tables on its way and makes
those that are missing. Whether it may go through one that is there depends on how that one came to
be: a table between braces is closed for good, and a table with a header of its own is closed for
dotted keys from elsewhere. A table that a header has only implied becomes one of dotted keys as
soon as such a key goes through it, and then has no header of its own any more. No key is given
twice.
-/

namespace SqlTokens.Toml

/-- A key, which may hold any characters. -/
abbrev Key := List Char

/-- The entries with the value of a key changed, which is there. -/
def replaceEntry (key : Key) (value : Value) : Entries → Entries
  | [] => []
  | (k, v) :: entries =>
    if k = key then (k, value) :: entries else (k, v) :: replaceEntry key value entries

/-- Put a value at a key, whether or not the key is there. -/
def putEntry (key : Key) (value : Value) (entries : Entries) : Entries :=
  if (entries.lookup key).isSome then replaceEntry key value entries else entries ++ [(key, value)]

/-- What a dotted key that goes through a table makes of its origin, if it may go through. -/
def Origin.afterDotted? : Origin → Option Origin
  | implied | dotted => some dotted
  | header | inline => none

/-- What a header that goes through a table makes of its origin, if it may go through. -/
def Origin.afterHeader? : Origin → Option Origin
  | inline => none
  | origin => some origin

/-- Change the table at the end of a path, and say how it came to be. Of an array that headers made,
the path goes through the last table, whatever its origin. A table that is missing is made with the
origin `fresh`, and one that is there is gone through only if `after?` gives it an origin. -/
def changeAt (after? : Origin → Option Origin) (fresh : Origin)
    (change : Origin → Entries → Option Value) : List Key → Origin → Entries → Option Value
  | [], origin, entries => change origin entries
  | key :: path, origin, entries => do
    let child ← match entries.lookup key with
      | none => changeAt after? fresh change path fresh []
      | some (.table origin' entries') => do
        changeAt after? fresh change path (← after? origin') entries'
      | some (.array true items) =>
        match items.getLast? with
        | some (.table origin' entries') =>
          (changeAt after? fresh change path origin' entries').map fun last =>
            .array true (items.dropLast ++ [last])
        | _ => none
      | some _ => none
    pure (.table origin (putEntry key child entries))

/-- Give a key of a table its value. The table must have come to be in the way that the key is
written: by dotted keys if other keys stand before it, otherwise not. -/
def enter (dottedKey : Bool) (key : Key) (value : Value) (origin : Origin) (entries : Entries) :
    Option Value :=
  if dottedKey = decide (origin = .dotted) && (entries.lookup key).isNone then
    some (.table origin (entries ++ [(key, value)]))
  else none

/-- Give a dotted key its value, below a table. -/
def insert (path : List Key) (value : Value) (origin : Origin) (entries : Entries) :
    Option Value :=
  match path.getLast? with
  | none => none
  | some key =>
    changeAt Origin.afterDotted? .dotted (enter (1 < path.length) key value) path.dropLast origin
      entries

/-- Open the table that a header names, in the table that holds it. It can have been implied before,
but not opened. -/
def openTable (key : Key) (origin : Origin) (entries : Entries) : Option Value :=
  match entries.lookup key with
  | none => some (.table origin (entries ++ [(key, .table .header [])]))
  | some (.table .implied inner) =>
    some (.table origin (replaceEntry key (.table .header inner) entries))
  | some _ => none

/-- Add a table to the array of tables that a header names, in the table that holds it. -/
def openItem (key : Key) (origin : Origin) (entries : Entries) : Option Value :=
  match entries.lookup key with
  | none => some (.table origin (entries ++ [(key, .array true [.table .header []])]))
  | some (.array true items) =>
    some (.table origin (replaceEntry key (.array true (items ++ [.table .header []])) entries))
  | some _ => none

/-- Follow a header, `opening` being what it does to the table that holds the one it names. -/
def follow (opening : Key → Origin → Entries → Option Value) (path : List Key) (root : Entries) :
    Option Value :=
  match path.getLast? with
  | none => none
  | some key => changeAt Origin.afterHeader? .implied (opening key) path.dropLast .header root

/-- Give a dotted key its value, below the table that the last header named. -/
def insertBelow (header path : List Key) (value : Value) (root : Entries) : Option Value :=
  changeAt some .implied (insert path value) header .header root

/-- The entries of a value that is a table. -/
def Value.entries? : Value → Option Entries
  | .table _ entries => some entries
  | _ => none

end SqlTokens.Toml
