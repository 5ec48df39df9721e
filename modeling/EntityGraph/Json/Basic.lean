import EntityGraph.Fields
import EntityGraph.Number.Binary64

/-!
JSON values. An integer literal that fits 64 bits, signed or unsigned, is an integer; every other
number is a double. An object keeps the order of its fields, and two objects that differ only in
this order are the same.
-/

namespace EntityGraph

/-- A JSON value. -/
inductive Json where
  | null
  | bool (b : Bool)
  | int (n : Int)
  | float (x : Binary64)
  | str (s : String)
  | arr (elems : List Json)
  | obj (fields : List (String × Json))
deriving Repr, Inhabited

namespace Json

/-- The largest signed 64-bit integer is `signedLimit - 1`. -/
def signedLimit : Int := 9223372036854775808

/-- The largest unsigned 64-bit integer is `unsignedLimit - 1`. -/
def unsignedLimit : Int := 18446744073709551616

/-- An integer that a JSON document can hold as one. -/
def Fits (n : Int) : Prop := -signedLimit ≤ n ∧ n < unsignedLimit

instance (n : Int) : Decidable (Fits n) := inferInstanceAs (Decidable (_ ∧ _))

/-- The number of an integer literal. -/
def ofInt (n : Int) : Json := if Fits n then .int n else .float (.ofInt n)

/-! ### Reading a value as one of a kind -/

def asString? : Json → Option String
  | .str s => some s
  | _ => none

def asBool? : Json → Option Bool
  | .bool b => some b
  | _ => none

def asObject? : Json → Option (Fields Json)
  | .obj fs => some fs
  | _ => none

def asArray? : Json → Option (List Json)
  | .arr xs => some xs
  | _ => none

/-- An integer from `0` up to the unsigned 64-bit limit. -/
def asUnsigned? : Json → Option Nat
  | .int n => if 0 ≤ n ∧ n < unsignedLimit then some n.toNat else none
  | _ => none

/-- The value of a number, in the precision of a double. -/
def asNumber? : Json → Option Binary64
  | .int n => some (.ofInt n)
  | .float x => some x
  | _ => none

def isNull : Json → Bool
  | .null => true
  | _ => false

/-- The field of an object. Other values have no fields. -/
def get? : Json → String → Option Json
  | .obj fs, key => Fields.get? fs key
  | _, _ => none

/-- The fields of a record that is an object, or a list of at most the given names. -/
def fieldsOf? (names : List String) : Json → Option (List (String × Json))
  | .obj fs => some fs
  | .arr xs => if xs.length ≤ names.length then some (names.zip xs) else none
  | _ => none

/-- A count that may be absent or null. -/
def optionalCount? : Option Json → Option (Option Nat)
  | none => some none
  | some .null => some none
  | some v => v.asUnsigned?.map some

/-! ### Equality -/

mutual

/-- Equality of JSON values: numbers of one class by value, objects in any order of fields. -/
def same : Json → Json → Bool
  | .null, .null => true
  | .bool a, .bool b => a == b
  | .int m, .int n => m == n
  | .float x, .float y => x.same y
  | .str s, .str t => s == t
  | .arr xs, .arr ys => sameElems xs ys
  | .obj fs, .obj gs => fs.length == gs.length && sameFields fs gs
  | _, _ => false

/-- Elementwise equality of lists of one length. -/
def sameElems : List Json → List Json → Bool
  | [], [] => true
  | x :: xs, y :: ys => same x y && sameElems xs ys
  | _, _ => false

/-- Every field of the first list is written in the second with the same value. -/
def sameFields : List (String × Json) → List (String × Json) → Bool
  | [], _ => true
  | (k, v) :: fs, gs =>
    (match Fields.get? gs k with
      | some w => same v w
      | none => false) && sameFields fs gs

end

/-! ### Distinct keys -/

mutual

/-- No object inside the value writes a key twice. -/
def Distinct : Json → Prop
  | .arr xs => DistinctElems xs
  | .obj fs => Fields.Distinct fs ∧ DistinctFields fs
  | _ => True

def DistinctElems : List Json → Prop
  | [] => True
  | x :: xs => Distinct x ∧ DistinctElems xs

def DistinctFields : List (String × Json) → Prop
  | [] => True
  | (_, v) :: fs => Distinct v ∧ DistinctFields fs

end

end Json

end EntityGraph
