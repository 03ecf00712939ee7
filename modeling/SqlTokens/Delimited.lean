/-!
# Delimited names and strings

A name or a string is put between delimiters so that it is read as one token whatever it holds: its
closing delimiter is doubled wherever it occurs. A name takes square brackets or double quotes, a
string takes apostrophes, with an `N` before them if it is a national one. The empty name has no
delimited form and stays empty.
-/

namespace SqlTokens.Delimited

/-- A text in which every `closer` is written twice. -/
def double (closer : Char) : List Char → List Char
  | [] => []
  | c :: text => if c = closer then c :: c :: double closer text else c :: double closer text

/-- A text in which two `closer` in a row are written once, from left to right. -/
def undouble (closer : Char) : List Char → List Char
  | c :: d :: text =>
    if c = closer && d = closer then closer :: undouble closer text
    else c :: undouble closer (d :: text)
  | text => text

/-- A text between delimiters. -/
def wrap (opener closer : Char) (text : List Char) : List Char :=
  opener :: (double closer text ++ [closer])

/-- The delimiters that a name can take. -/
inductive NameForm where
  | square
  | quotes
  deriving DecidableEq, Repr

namespace NameForm

/-- The character that opens a name. -/
def opener : NameForm → Char
  | square => '['
  | quotes => '"'

/-- The character that closes a name. -/
def closer : NameForm → Char
  | square => ']'
  | quotes => '"'

/-- The form whose opening character this is. -/
def ofOpener? (c : Char) : Option NameForm :=
  if c = '[' then some square else if c = '"' then some quotes else none

end NameForm

/-- The delimited form of a name. -/
def encodeName (form : NameForm) (name : List Char) : List Char :=
  if name.isEmpty then [] else wrap form.opener form.closer name

/-- The name that a delimited form stands for. A text that does not start and end with the
delimiters of a form stands for itself. -/
def decodeName (encoded : List Char) : List Char :=
  match encoded with
  | [] => []
  | c :: rest =>
    match NameForm.ofOpener? c with
    | none => encoded
    | some form =>
      if rest.getLast? = some form.closer then undouble form.closer rest.dropLast else encoded

/-- The delimited form of a string. -/
def quoteString (national : Bool) (value : List Char) : List Char :=
  (if national then ['N'] else []) ++ wrap '\'' '\'' value

@[simp] theorem undouble_double (closer : Char) (text : List Char) :
    undouble closer (double closer text) = text := by
  induction text with
  | nil => rfl
  | cons c text ih =>
    simp only [double]
    split
    · rename_i hc
      subst hc
      simp [undouble, ih]
    · rename_i hc
      cases hd : double closer text with
      | nil => simpa [undouble, hd] using ih
      | cons d rest =>
        rw [hd] at ih
        simp [undouble, hc, ih]

end SqlTokens.Delimited
