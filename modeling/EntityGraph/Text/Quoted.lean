import EntityGraph.Text.Extending
import EntityGraph.Text.Hidden

/-!
Text in quotes, fit to be shown: the quote, the backslash and the characters that would not be seen
where they stand are written as escapes.
-/

namespace EntityGraph.Text

/-- An escape by the number of a character. -/
def numberEscape (c : Char) : List Char :=
  '\\' :: 'u' :: '{' :: (Nat.toDigits 16 c.toNat ++ ['}'])

/-- A character as it is written between quotes. -/
def quotedChar (c : Char) : List Char :=
  if c = '"' then ['\\', '"']
  else if c = '\\' then ['\\', '\\']
  else if c = '\n' then ['\\', 'n']
  else if c = '\t' then ['\\', 't']
  else if c = '\r' then ['\\', 'r']
  else if c.toNat = 0 then ['\\', '0']
  else if isExtending c || isHidden c then numberEscape c
  else [c]

/-- A text in quotes. -/
def quoted (s : String) : String := String.ofList ('"' :: (s.toList.flatMap quotedChar ++ ['"']))

end EntityGraph.Text
