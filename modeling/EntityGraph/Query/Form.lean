import EntityGraph.Query.Find

/-!
The JSON form of filters and queries. A choice is written as its name, or as an object of one
field from its name to its content. Reading ignores keys it does not know and accepts a record
written as the list of its fields; writing leaves out what is absent.
-/

namespace EntityGraph

/-! ### Writing -/

/-- The JSON form of a value kind. -/
def ValueKind.toJson : ValueKind → Json
  | .plain => .str "plain"
  | .timestamp => .str "timestamp"

/-- The operands of a condition. -/
def Condition.operands : Condition → Json
  | .eq v | .ne v | .gt v | .gte v | .lt v | .lte v => v
  | .oneOf vs | .noneOf vs => .arr vs

/-- The JSON form of a condition. -/
def Condition.toJson (c : Condition) : Json := .obj [(c.operator, c.operands)]

namespace Filter

mutual

/-- The JSON form of a filter. -/
def toJson : Filter → Json
  | .all => .str "All"
  | .and fs => .obj [("And", .arr (listToJson fs))]
  | .or fs => .obj [("Or", .arr (listToJson fs))]
  | .field name c kind =>
    .obj [("Field",
      .obj [("field", .str name), ("condition", c.toJson), ("kind", kind.toJson)])]

def listToJson : List Filter → List Json
  | [] => []
  | f :: fs => toJson f :: listToJson fs

end

end Filter

/-- The JSON form of a sort direction. -/
def SortDirection.toJson : SortDirection → Json
  | .ascending => .str "ascending"
  | .descending => .str "descending"

/-- The JSON form of a sort key. -/
def SortKey.toJson (k : SortKey) : Json :=
  .obj [("field", .str k.field), ("direction", k.direction.toJson), ("kind", k.kind.toJson)]

/-- A field that is written only when there is a count. -/
def countField (key : String) : Option Nat → List (String × Json)
  | some n => [(key, .int n)]
  | none => []

/-- The sort keys of a query, written only when there are some. -/
def sortField : List SortKey → List (String × Json)
  | [] => []
  | ks => [("sort", .arr (ks.map SortKey.toJson))]

/-- The JSON form of a query. -/
def FindQuery.toJson (q : FindQuery) : Json :=
  .obj (("filter", q.filter.toJson) :: sortField q.sort ++ countField "skip" q.skip ++
    countField "limit" q.limit)

/-! ### Reading -/

/-- The name of a choice without content. -/
def Json.choice? : Json → Option String
  | .str s => some s
  | .obj [(s, .null)] => some s
  | _ => none

/-- Reads a value kind. -/
def ValueKind.ofJson? (v : Json) : Option ValueKind :=
  match v.choice? with
  | some "plain" => some .plain
  | some "timestamp" => some .timestamp
  | _ => none

/-- Reads a value kind that may be absent. -/
def ValueKind.ofField? : Option Json → Option ValueKind
  | none => some .plain
  | some v => ofJson? v

/-- The condition of an operator and its operands. -/
def Condition.ofOperator? (operator : String) (v : Json) : Option Condition :=
  match operator with
  | "eq" => some (.eq v)
  | "ne" => some (.ne v)
  | "gt" => some (.gt v)
  | "gte" => some (.gte v)
  | "lt" => some (.lt v)
  | "lte" => some (.lte v)
  | "in" => v.asArray?.map .oneOf
  | "nin" => v.asArray?.map .noneOf
  | _ => none

/-- Reads a condition. -/
def Condition.ofJson? : Json → Option Condition
  | .obj [(operator, v)] => ofOperator? operator v
  | _ => none

namespace Filter

/-- Reads the content of a condition on a field. -/
def fieldOfJson? (fs : List (String × Json)) : Option Filter := do
  let name ← (Fields.get? fs "field").bind Json.asString?
  let condition ← (Fields.get? fs "condition").bind Condition.ofJson?
  let kind ← ValueKind.ofField? (Fields.get? fs "kind")
  return .field name condition kind

mutual

/-- Reads a filter. -/
def ofJson? : Json → Option Filter
  | .str s => if s = "All" then some .all else none
  | .obj [(tag, .null)] => if tag = "All" then some .all else none
  | .obj [(tag, .arr xs)] =>
    if tag = "And" then (listOfJson? xs).map .and
    else if tag = "Or" then (listOfJson? xs).map .or
    else none
  | .obj [(tag, .obj fs)] => if tag = "Field" then fieldOfJson? fs else none
  | _ => none

def listOfJson? : List Json → Option (List Filter)
  | [] => some []
  | x :: xs =>
    match ofJson? x, listOfJson? xs with
    | some f, some fs => some (f :: fs)
    | _, _ => none

end

end Filter

/-- Reads a sort direction. -/
def SortDirection.ofJson? (v : Json) : Option SortDirection :=
  match v.choice? with
  | some "ascending" => some .ascending
  | some "descending" => some .descending
  | _ => none

/-- Reads a sort key. -/
def SortKey.ofJson? (v : Json) : Option SortKey := do
  let fs ← v.fieldsOf? ["field", "direction", "kind"]
  let field ← (Fields.get? fs "field").bind Json.asString?
  let direction ← (Fields.get? fs "direction").bind SortDirection.ofJson?
  let kind ← ValueKind.ofField? (Fields.get? fs "kind")
  return { field, direction, kind }

/-- Reads a list of sort keys. -/
def SortKey.listOfJson? (v : Json) : Option (List SortKey) :=
  v.asArray?.bind fun xs => xs.mapM SortKey.ofJson?

/-- Reads a query. -/
def FindQuery.ofJson? (v : Json) : Option FindQuery := do
  let fs ← v.fieldsOf? ["filter", "sort", "skip", "limit"]
  let filter ← match Fields.get? fs "filter" with
    | none => some .all
    | some v => Filter.ofJson? v
  let sort ← match Fields.get? fs "sort" with
    | none => some []
    | some v => SortKey.listOfJson? v
  let skip ← Json.optionalCount? (Fields.get? fs "skip")
  let limit ← Json.optionalCount? (Fields.get? fs "limit")
  return { filter, sort, skip, limit }

end EntityGraph
