import SqlTokens.Toml.Lexeme
import SqlTokens.Toml.Scalar
import SqlTokens.Toml.Table

/-!
# Statements of TOML

A document is a list of statements: headers, and keys with their values. They are read by an
automaton that takes one lexeme after the other. Where it stands is a `Place`; arrays and inline
tables that are still open are kept on a stack of frames, whose last frame is the key that the whole
value belongs to.
-/

namespace SqlTokens.Toml

/-- A line of a document, or several lines if a value runs over them. -/
inductive Statement where
  /-- The entries that follow belong to this table. -/
  | table (path : List Key)
  /-- The entries that follow belong to a new table at the end of this array. -/
  | item (path : List Key)
  /-- A dotted key and its value. -/
  | entry (path : List Key) (value : Value)

/-- What a value that is being read is part of. -/
inductive Frame where
  /-- The value of a key of its own line. -/
  | entry (path : List Key)
  /-- An item of an array; the items before it, the latest first. -/
  | array (items : List Value)
  /-- The value of a key of an inline table, and the entries before it. -/
  | inline (entries : Entries) (path : List Key)

/-- What a key that is being read is for. -/
inductive KeyUse where
  | entry
  | table
  | item
  | inline (entries : Entries) (outer : List Frame)

/-- Where the automaton stands. A path is kept with its latest key first. -/
inductive Place where
  /-- Where a statement can start. -/
  | lineStart
  /-- Behind a statement, before the end of its line. -/
  | lineEnd
  /-- Behind the first bracket of a header. -/
  | header
  /-- Behind a header of an item, before its second closing bracket. -/
  | itemEnd (path : List Key)
  /-- Where the next part of a key must come. -/
  | key (use : KeyUse) (path : List Key)
  /-- Behind a part of a key. -/
  | keyEnd (use : KeyUse) (path : List Key)
  /-- Behind the last part of a key of an inline table, on a later line. -/
  | keyLine (entries : Entries) (path : List Key) (outer : List Frame)
  /-- Where a value can start. -/
  | value (stack : List Frame)
  /-- Inside an unquoted value. -/
  | scalar (spelling : List Char) (stack : List Frame)
  /-- Behind a date and one blank, where a time of day can come. -/
  | dated (spelling : List Char) (stack : List Frame)
  /-- Behind a value that is part of an array or an inline table. -/
  | valueEnd (stack : List Frame)

/-- The statements read so far, the latest first, and where the automaton stands. -/
structure Reading where
  statements : List Statement
  place : Place

/-- The number of arrays and inline tables that can be open at a time. -/
def maxDepth : Nat := 80

namespace Reading

/-- The reading of a document at its start. -/
def start : Reading :=
  ⟨[], .lineStart⟩

/-- Go to another place. -/
def goto (reading : Reading) (place : Place) : Option Reading :=
  some { reading with place }

/-- Finish a statement. -/
def state (reading : Reading) (statement : Statement) : Option Reading :=
  some ⟨statement :: reading.statements, .lineEnd⟩

/-- Hand a value to what it is part of. -/
def deliver (reading : Reading) (value : Value) : List Frame → Option Reading
  | [.entry path] => reading.state (.entry path value)
  | .array items :: outer => reading.goto (.valueEnd (.array (value :: items) :: outer))
  | .inline entries path :: outer => do
    let entries ← (← insert path value .inline entries).entries?
    reading.goto (.valueEnd (.inline entries [] :: outer))
  | _ => none

/-- Open an array or an inline table inside a stack of frames. One of them is the line itself. -/
def nest (reading : Reading) (stack : List Frame) (place : Place) : Option Reading :=
  if stack.length ≤ maxDepth then reading.goto place else none

/-- Start a key. -/
def startKey (reading : Reading) (use : KeyUse) (path : List Key) : Lexeme → Option Reading
  | .string text false => reading.goto (.keyEnd use (text :: path))
  | .word chars =>
    if chars.all fun c => c.isAlphanum || c = '_' || c = '-' then
      reading.goto (.keyEnd use (chars :: path))
    else none
  | _ => none

/-- Take a lexeme at a place where a statement or a part of a value is complete. -/
def takeBehind (reading : Reading) (lexeme : Lexeme) : Option Reading :=
  match reading.place, lexeme with
  | .lineEnd, .blank _ => some reading
  | .lineEnd, .newLine => reading.goto .lineStart
  | .valueEnd _, .blank _ => some reading
  | .valueEnd _, .newLine => some reading
  | .valueEnd (.array items :: outer), .mark ',' => reading.goto (.value (.array items :: outer))
  | .valueEnd (.array items :: outer), .mark ']' =>
    reading.deliver (.array false items.reverse) outer
  | .valueEnd (.inline entries _ :: outer), .mark ',' =>
    reading.goto (.key (.inline entries outer) [])
  | .valueEnd (.inline entries _ :: outer), .mark '\x7d' =>
    reading.deliver (.table .inline entries) outer
  | _, _ => none

/-- Finish an unquoted value. -/
def finishScalar (reading : Reading) (spelling : List Char) (stack : List Frame) :
    Option Reading := do
  reading.deliver (← scalar? spelling) stack

/-- Take the next lexeme. -/
def take (reading : Reading) (lexeme : Lexeme) : Option Reading :=
  match reading.place with
  | .lineStart =>
    match lexeme with
    | .blank _ => some reading
    | .newLine => some reading
    | .mark '[' => reading.goto .header
    | _ => reading.startKey .entry [] lexeme
  | .header =>
    match lexeme with
    | .mark '[' => reading.goto (.key .item [])
    | .blank _ => reading.goto (.key .table [])
    | _ => reading.startKey .table [] lexeme
  | .itemEnd path =>
    match lexeme with
    | .mark ']' => reading.state (.item path.reverse)
    | _ => none
  | .key use path =>
    match use, path, lexeme with
    | _, _, .blank _ => some reading
    | .inline _ _, [], .newLine => some reading
    | .inline entries outer, [], .mark '\x7d' => reading.deliver (.table .inline entries) outer
    | _, _, _ => reading.startKey use path lexeme
  | .keyEnd use path =>
    match use, lexeme with
    | _, .blank _ => some reading
    | _, .mark '.' => reading.goto (.key use path)
    | .entry, .mark '=' => reading.goto (.value [.entry path.reverse])
    | .inline entries outer, .mark '=' =>
      reading.goto (.value (.inline entries path.reverse :: outer))
    | .inline entries outer, .newLine => reading.goto (.keyLine entries path outer)
    | .table, .mark ']' => reading.state (.table path.reverse)
    | .item, .mark ']' => reading.goto (.itemEnd path)
    | _, _ => none
  | .keyLine entries path outer =>
    match lexeme with
    | .blank _ => some reading
    | .newLine => some reading
    | .mark '=' => reading.goto (.value (.inline entries path.reverse :: outer))
    | _ => none
  | .value stack =>
    match lexeme, stack with
    | .blank _, _ => some reading
    | .newLine, .array _ :: _ => some reading
    | .newLine, .inline _ _ :: _ => some reading
    | .mark ']', .array items :: outer => reading.deliver (.array false items.reverse) outer
    | .mark '[', _ => reading.nest stack (.value (.array [] :: stack))
    | .mark '\x7b', _ => reading.nest stack (.key (.inline [] stack) [])
    | .string text _, _ => reading.deliver (.string text) stack
    | .word chars, _ => reading.goto (.scalar chars stack)
    | _, _ => none
  | .scalar spelling stack =>
    match lexeme with
    | .word chars => reading.goto (.scalar (spelling ++ chars) stack)
    | .mark '.' => reading.goto (.scalar (spelling ++ ['.']) stack)
    | .blank [' '] =>
      if Moment.isDate spelling then reading.goto (.dated spelling stack)
      else (reading.finishScalar spelling stack).bind (·.takeBehind lexeme)
    | _ => (reading.finishScalar spelling stack).bind (·.takeBehind lexeme)
  | .dated spelling stack =>
    match lexeme with
    | .word chars => reading.goto (.scalar (spelling ++ ' ' :: chars) stack)
    | _ => (reading.finishScalar spelling stack).bind (·.takeBehind lexeme)
  | .lineEnd => reading.takeBehind lexeme
  | .valueEnd _ => reading.takeBehind lexeme

/-- The statements of a document that ends here, if it can. -/
def finish (reading : Reading) : Option (List Statement) := do
  let reading ← match reading.place with
    | .scalar spelling stack => reading.finishScalar spelling stack
    | .dated spelling stack => reading.finishScalar spelling stack
    | _ => some reading
  match reading.place with
  | .lineStart => some reading.statements.reverse
  | .lineEnd => some reading.statements.reverse
  | _ => none

end Reading

/-- The statements that a list of lexemes is made of. -/
def statements? (lexemes : List Lexeme) : Option (List Statement) := do
  (← lexemes.foldlM Reading.take .start).finish

end SqlTokens.Toml
