/-!
# Tokens

A token is a piece of SQL text together with its kind. Its text is exactly what stood in the input:
nothing is unescaped, trimmed or folded, so the texts of all tokens of an input, joined, are the
input again.
-/

namespace SqlTokens

/-- The seven kinds of token, in the order in which they are listed. -/
inductive Kind where
  | whitespace
  | lineComment
  | blockComment
  | literal
  | symbol
  | squareString
  | quotedString
  deriving DecidableEq, Repr

namespace Kind

/-- Every kind, once. -/
def all : List Kind :=
  [whitespace, lineComment, blockComment, literal, symbol, squareString, quotedString]

theorem mem_all (kind : Kind) : kind ∈ all := by
  cases kind <;> decide

/-- A kind is sundry if its tokens say nothing to a reader of the statement: blanks and comments. -/
def isSundry : Kind → Bool
  | whitespace | lineComment | blockComment => true
  | literal | symbol | squareString | quotedString => false

/-- The name under which a kind is printed and read back. -/
def name : Kind → String
  | whitespace => "Whitespace"
  | lineComment => "LineComment"
  | blockComment => "BlockComment"
  | literal => "Literal"
  | symbol => "Symbol"
  | squareString => "SquareString"
  | quotedString => "QuotedString"

/-- The kind with a given name. Names are matched exactly. -/
def ofName? (name : String) : Option Kind :=
  all.find? (·.name = name)

@[simp] theorem ofName?_name (kind : Kind) : ofName? kind.name = some kind := by
  cases kind <;> decide

end Kind

/-- A kind and the text that was read for it. -/
structure Token where
  kind : Kind
  text : List Char
  deriving DecidableEq, Repr

namespace Token

/-- Whether the token is a run of blanks or a comment. -/
def isSundry (token : Token) : Bool :=
  token.kind.isSundry

/-- The text that a list of tokens was read from. -/
def source (tokens : List Token) : List Char :=
  tokens.flatMap (·.text)

/-- The tokens that are neither blanks nor comments. -/
def significant (tokens : List Token) : List Token :=
  tokens.filter (!·.isSundry)

@[simp] theorem source_nil : source [] = [] := rfl

@[simp] theorem source_cons (token : Token) (tokens : List Token) :
    source (token :: tokens) = token.text ++ source tokens := rfl

@[simp] theorem source_append (tokens tokens' : List Token) :
    source (tokens ++ tokens') = source tokens ++ source tokens' := by
  simp [source]

end Token

end SqlTokens
