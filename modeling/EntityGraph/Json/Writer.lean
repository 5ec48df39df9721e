import EntityGraph.Json.Basic
import EntityGraph.Number.Shortest

/-!
The compact text of a JSON value: no spaces, fields in the order of the value, and the escapes
of JSON for the quote, the backslash and control characters.
-/

namespace EntityGraph.Json

/-- The lower-case hexadecimal digit of a number below sixteen. -/
def hexDigit (n : Nat) : Char := Nat.digitChar n

/-- How a character is written inside a string. -/
def escape (c : Char) : List Char :=
  if c = '"' then ['\\', '"']
  else if c = '\\' then ['\\', '\\']
  else if c = '\n' then ['\\', 'n']
  else if c = '\t' then ['\\', 't']
  else if c = '\r' then ['\\', 'r']
  else if c.toNat = 8 then ['\\', 'b']
  else if c.toNat = 12 then ['\\', 'f']
  else if c.toNat < 32 then
    ['\\', 'u', '0', '0', hexDigit (c.toNat / 16), hexDigit (c.toNat % 16)]
  else [c]

/-- The text of a string in quotes. -/
def quoted (s : String) : String := String.ofList ('"' :: (s.toList.flatMap escape ++ ['"']))

mutual

/-- The compact text of a value. -/
def compact : Json → String
  | .null => "null"
  | .bool true => "true"
  | .bool false => "false"
  | .int n => toString n
  | .float x => x.text
  | .str s => quoted s
  | .arr xs => "[" ++ ",".intercalate (compactElems xs) ++ "]"
  | .obj fs => "\x7b" ++ ",".intercalate (compactFields fs) ++ "\x7d"

def compactElems : List Json → List String
  | [] => []
  | x :: xs => compact x :: compactElems xs

def compactFields : List (String × Json) → List String
  | [] => []
  | (k, v) :: fs => (quoted k ++ ":" ++ compact v) :: compactFields fs

end

/-! ### Sorted keys -/

/-- Keys in the order of their characters. -/
def keyOrder (f g : String × Json) : Bool := f.1 ≤ g.1

mutual

/-- The value with the keys of every object sorted. -/
def sorted : Json → Json
  | .arr xs => .arr (sortedElems xs)
  | .obj fs => .obj ((sortedFields fs).mergeSort keyOrder)
  | v => v

def sortedElems : List Json → List Json
  | [] => []
  | x :: xs => sorted x :: sortedElems xs

def sortedFields : List (String × Json) → List (String × Json)
  | [] => []
  | (k, v) :: fs => (k, sorted v) :: sortedFields fs

end

end EntityGraph.Json
