import EntityGraph.Json.Basic

/-!
TOML values, and the JSON they stand for: a date or a time is an object that holds its text under
a private key, and a number that is not finite is null. An integer of more than 64 bits stands for
nothing in JSON.
-/

namespace EntityGraph

/-- A TOML value. -/
inductive Toml where
  | str (s : String)
  | int (n : Int)
  | float (x : Binary64)
  | nonFinite
  | bool (b : Bool)
  | date (text : String)
  | arr (elems : List Toml)
  | table (fields : List (String × Toml))
deriving Repr, Inhabited

namespace Toml

/-- The key that holds the text of a date. -/
def dateKey : String := "$__toml_private_datetime"

mutual

/-- The JSON value of a TOML value. -/
def toJson? : Toml → Option Json
  | .str s => some (.str s)
  | .int n => if Json.Fits n then some (.int n) else none
  | .float x => some (.float x)
  | .nonFinite => some .null
  | .bool b => some (.bool b)
  | .date text => some (.obj [(dateKey, .str text)])
  | .arr xs => (elemsToJson? xs).map .arr
  | .table fs => (fieldsToJson? fs).map .obj

def elemsToJson? : List Toml → Option (List Json)
  | [] => some []
  | x :: xs => do
    let v ← toJson? x
    let vs ← elemsToJson? xs
    return v :: vs

def fieldsToJson? : List (String × Toml) → Option (List (String × Json))
  | [] => some []
  | (k, x) :: fs => do
    let v ← toJson? x
    let vs ← fieldsToJson? fs
    return (k, v) :: vs

end

end Toml

end EntityGraph
