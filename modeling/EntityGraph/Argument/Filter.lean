import EntityGraph.Entity
import EntityGraph.Graph.Error

/-!
Filter arguments. The conditions of an object are joined by "and"; `AND` and `OR` hold lists of
filters, where a single object stands for a list of one. An operator whose operand is null is
ignored, except `eq` and `ne`, for which null is a value.
-/

namespace EntityGraph

/-- The fields of an entity that compare by instant. -/
structure FieldKinds where
  timestamps : List String
deriving Repr

namespace FieldKinds

/-- No field compares by instant. -/
def none : FieldKinds := ⟨[]⟩

/-- The properties of an entity that are dates, or arrays of dates. -/
def ofEntity (e : Entity) : FieldKinds :=
  ⟨(e.propertyTypes.filter fun p => p.2.scalarLeaf? = some .date).map Prod.fst⟩

/-- How a field compares. -/
def kind (ks : FieldKinds) (field : String) : ValueKind :=
  if ks.timestamps.contains field then .timestamp else .plain

end FieldKinds

namespace Argument

/-- The keys that join filters. -/
def andKey : String := "AND"
def orKey : String := "OR"

/-- A list of operands, for which a single one may stand. -/
def operandList : Json → List Json
  | .arr xs => xs
  | v => [v]

/-- The condition of an operator, or none when its operand is ignored. -/
def condition (operator : String) (operand : Value) : Except ArgumentError (Option Condition) :=
  let v := operand.toJson
  if operator = "eq" then .ok (some (.eq v))
  else if operator = "ne" then .ok (some (.ne v))
  else if v.isNull then .ok none
  else
    match operator with
    | "gt" => .ok (some (.gt v))
    | "gte" => .ok (some (.gte v))
    | "lt" => .ok (some (.lt v))
    | "lte" => .ok (some (.lte v))
    | "in" => .ok (some (.oneOf (operandList v)))
    | "nin" => .ok (some (.noneOf (operandList v)))
    | _ => .error (.unknownOperator operator)

/-- The filters of the operators on a field, in order. -/
def operatorFilters (field : String) (kind : ValueKind) :
    List (String × Value) → Except ArgumentError (List Filter)
  | [] => .ok []
  | (operator, operand) :: rest =>
    match condition operator operand with
    | .error e => .error e
    | .ok c =>
      (operatorFilters field kind rest).map fun fs =>
        match c with
        | some c => .field field c kind :: fs
        | none => fs

/-- The filters of the conditions on a field. -/
def fieldFilters (ks : FieldKinds) (field : String) : Value → Except ArgumentError (List Filter)
  | .null => .ok []
  | .object fs => operatorFilters field (ks.kind field) fs
  | v => .error (.notOperators field v)

/-- The disjunction of a list of filters, which an empty list leaves out. -/
def disjunction (fs : List Filter) : List Filter := if fs.isEmpty then [] else [.or fs]

mutual

/-- The filter of an argument. -/
def filter (ks : FieldKinds) : Value → Except ArgumentError Filter
  | .null => .ok .all
  | .object fs => (filterParts ks fs).map Filter.conj
  | v => .error (.notFilter v)

/-- The filters of the entries of an object, in order. -/
def filterParts (ks : FieldKinds) : List (String × Value) → Except ArgumentError (List Filter)
  | [] => .ok []
  | (key, operand) :: rest =>
    let part :=
      if key = andKey then (filterList ks operand).map fun fs => [Filter.conj fs]
      else if key = orKey then (filterList ks operand).map disjunction
      else fieldFilters ks key operand
    match part with
    | .error e => .error e
    | .ok fs => (filterParts ks rest).map (fs ++ ·)

/-- The filters of a list, for which a single object may stand. -/
def filterList (ks : FieldKinds) : Value → Except ArgumentError (List Filter)
  | .null => .ok []
  | .list vs => filterItems ks vs
  | .object fs => (filterParts ks fs).map fun ps => [Filter.conj ps]
  | v => .error (.notFilterList v)

/-- The filters of the items of a list, in order. -/
def filterItems (ks : FieldKinds) : List Value → Except ArgumentError (List Filter)
  | [] => .ok []
  | v :: vs =>
    match filter ks v with
    | .error e => .error e
    | .ok f => (filterItems ks vs).map (f :: ·)

end

end Argument

end EntityGraph
