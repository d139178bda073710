import BuildPlanner.Text.GraphemeExtend
import BuildPlanner.Text.Printable

/-!
# Texts in messages

A text is shown in double quotes. Quotes, backslashes and characters that would not be seen are
escaped, the latter by their number.
-/

namespace BuildPlanner.Text

/-- Whether a character is not seen by itself. -/
def isUnseen (c : Char) : Bool :=
  extendsGrapheme c || !isPrintable c

/-- A character by its number. -/
def escape (c : Char) : List Char :=
  ['\\', 'u', '\x7b'] ++ Nat.toDigits 16 c.toNat ++ ['\x7d']

/-- A character in a shown text. -/
def displayChar (c : Char) : List Char :=
  if c = '"' then ['\\', '"']
  else if c = '\\' then ['\\', '\\']
  else if c = '\n' then ['\\', 'n']
  else if c = '\r' then ['\\', 'r']
  else if c = '\t' then ['\\', 't']
  else if c = '\x00' then ['\\', '0']
  else if isUnseen c then escape c
  else [c]

/-- A text as messages show it. -/
def display (text : String) : String :=
  .ofList ('"' :: text.toList.flatMap displayChar ++ ['"'])

end BuildPlanner.Text
