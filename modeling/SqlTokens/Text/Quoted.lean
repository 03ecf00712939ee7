import SqlTokens.Text.Invisible
import SqlTokens.Text.Number

/-!
# Quoted texts

The form in which a text is shown on a single line: between double quotes, with every character
that would end the quotes, break the line or leave no mark written as an escape. An escape starts
with a backslash, and no other backslash is written.
-/

namespace SqlTokens.Text

/-- How a quoted text shows one character. -/
def escape (c : Char) : List Char :=
  if c = '"' then ['\\', '"']
  else if c = '\\' then ['\\', '\\']
  else if c = '\n' then ['\\', 'n']
  else if c = '\r' then ['\\', 'r']
  else if c = '\t' then ['\\', 't']
  else if c = '\x00' then ['\\', '0']
  else if isInvisible c then ['\\', 'u', '\x7b'] ++ hexadecimal 1 c.toNat ++ ['\x7d']
  else [c]

/-- A text between double quotes, on one line. -/
def quoted (text : List Char) : List Char :=
  '"' :: (text.flatMap escape ++ ['"'])

end SqlTokens.Text
