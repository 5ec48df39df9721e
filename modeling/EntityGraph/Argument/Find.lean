import EntityGraph.Argument.Filter
import EntityGraph.Query.Find

/-!
The arguments of lists: a filter, sort keys in the order they are written, and a page. The limit
never exceeds the largest one that is configured.
-/

namespace EntityGraph.Argument

/-! ### Sorting -/

/-- The name of a sort direction. -/
def directionName? : Value → Option String
  | .item n => some n
  | .str n => some n
  | _ => none

/-- The direction of a sort key. -/
def direction (field : String) (v : Value) : Except ArgumentError SortDirection :=
  match directionName? v with
  | some "ASC" => .ok .ascending
  | some "DESC" => .ok .descending
  | some n => .error (.badDirection field n)
  | none => .error (.badDirection field v.text)

/-- The sort keys of the entries of an object. Null leaves a key out. -/
def sortKeys (ks : FieldKinds) : List (String × Value) → Except ArgumentError (List SortKey)
  | [] => .ok []
  | (field, v) :: rest =>
    if v.isNull then sortKeys ks rest
    else
      match direction field v with
      | .error e => .error e
      | .ok d => (sortKeys ks rest).map (⟨field, d, ks.kind field⟩ :: ·)

/-- The sort keys of an argument. -/
def sort (ks : FieldKinds) : Value → Except ArgumentError (List SortKey)
  | .null => .ok []
  | .object fs => sortKeys ks fs
  | v => .error (.notSort v)

/-! ### Pages -/

/-- The value of an integer in the signed 64-bit range. -/
def signed? : Value → Option Int
  | .int n => if -Json.signedLimit ≤ n ∧ n < Json.signedLimit then some n else none
  | _ => none

/-- A count that may be absent or null. -/
def count (name : String) : Option Value → Except ArgumentError (Option Nat)
  | none => .ok none
  | some .null => .ok none
  | some v =>
    match signed? v with
    | none => .error (.notInteger name)
    | some n => if 0 ≤ n then .ok (some n.toNat) else .error (.negative name n)

/-- A limit under the largest one. -/
def clamp (limit largest : Option Nat) : Option Nat :=
  match limit, largest with
  | some l, some m => some (min l m)
  | none, some m => some m
  | l, none => l

/-! ### Queries -/

/-- The arguments of a field. -/
abbrev Arguments := List (String × Value)

/-- The filter of the arguments, every record when there is none. -/
def filterOf (ks : FieldKinds) (args : Arguments) : Except ArgumentError Filter :=
  match Fields.get? args "filter" with
  | some v => filter ks v
  | none => .ok .all

/-- The sort keys of the arguments. -/
def sortOf (ks : FieldKinds) (args : Arguments) : Except ArgumentError (List SortKey) :=
  match Fields.get? args "sort" with
  | some v => sort ks v
  | none => .ok []

/-- The query of the arguments of a list. -/
def findQuery (ks : FieldKinds) (largest : Option Nat) (args : Arguments) :
    Except ArgumentError FindQuery := do
  let filter ← filterOf ks args
  let sort ← sortOf ks args
  let limit ← count "limit" (Fields.get? args "limit")
  let skip ← count "skip" (Fields.get? args "skip")
  return { filter, sort, skip, limit := clamp limit largest }

end EntityGraph.Argument
