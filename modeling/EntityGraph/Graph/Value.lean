import EntityGraph.Json.Writer

/-!
Values of the GraphQL language, their text, and their conversion from and to JSON. JSON has
neither enum items nor bytes: an item becomes its name and bytes become null.
-/

namespace EntityGraph

/-- A GraphQL value. -/
inductive Value where
  | null
  | bool (b : Bool)
  | int (n : Int)
  | float (x : Binary64)
  | str (s : String)
  | item (name : String)
  | bytes (bs : List Nat)
  | list (elems : List Value)
  | object (fields : List (String × Value))
deriving Repr, Inhabited

namespace Value

/-- The null value. -/
def isNull : Value → Bool
  | .null => true
  | _ => false

/-! ### JSON -/

mutual

/-- The JSON of a value. -/
def toJson : Value → Json
  | .null => .null
  | .bool b => .bool b
  | .int n => .int n
  | .float x => .float x
  | .str s => .str s
  | .item name => .str name
  | .bytes _ => .null
  | .list vs => .arr (elemsToJson vs)
  | .object fs => .obj (fieldsToJson fs)

def elemsToJson : List Value → List Json
  | [] => []
  | v :: vs => toJson v :: elemsToJson vs

def fieldsToJson : List (String × Value) → List (String × Json)
  | [] => []
  | (k, v) :: fs => (k, toJson v) :: fieldsToJson fs

end

mutual

/-- The value of a JSON. -/
def ofJson : Json → Value
  | .null => .null
  | .bool b => .bool b
  | .int n => .int n
  | .float x => .float x
  | .str s => .str s
  | .arr xs => .list (elemsOfJson xs)
  | .obj fs => .object (fieldsOfJson fs)

def elemsOfJson : List Json → List Value
  | [] => []
  | x :: xs => ofJson x :: elemsOfJson xs

def fieldsOfJson : List (String × Json) → List (String × Value)
  | [] => []
  | (k, v) :: fs => (k, ofJson v) :: fieldsOfJson fs

end

/-! ### Text -/

/-- A number in decimal with at least four places. -/
def fourPlaces (n : Nat) : List Char :=
  let ds := Nat.toDigits 10 n
  List.replicate (4 - ds.length) '0' ++ ds

/-- Control characters: the first block, the delete character and the second block. -/
def isControl (c : Char) : Bool := c.toNat < 32 || (127 ≤ c.toNat && c.toNat < 160)

/-- How a character is written inside a string. A control character without an escape of its own
is written by its code in decimal. -/
def escape (c : Char) : List Char :=
  if c = '"' then ['\\', '"']
  else if c = '\\' then ['\\', '\\']
  else if c = '\n' then ['\\', 'n']
  else if c = '\r' then ['\\', 'r']
  else if c = '\t' then ['\\', 't']
  else if isControl c then '\\' :: 'u' :: fourPlaces c.toNat
  else [c]

/-- A string in quotes. -/
def quoted (s : String) : String := String.ofList ('"' :: (s.toList.flatMap escape ++ ['"']))

mutual

/-- The text of a value. -/
def text : Value → String
  | .null => "null"
  | .bool true => "true"
  | .bool false => "false"
  | .int n => toString n
  | .float x => x.text
  | .str s => quoted s
  | .item name => name
  | .bytes bs => "[" ++ ", ".intercalate (bs.map fun b => toString b) ++ "]"
  | .list vs => "[" ++ ", ".intercalate (elemTexts vs) ++ "]"
  | .object fs => "\x7b" ++ ", ".intercalate (fieldTexts fs) ++ "\x7d"

def elemTexts : List Value → List String
  | [] => []
  | v :: vs => text v :: elemTexts vs

def fieldTexts : List (String × Value) → List String
  | [] => []
  | (k, v) :: fs => (k ++ ": " ++ text v) :: fieldTexts fs

end

end Value

end EntityGraph
