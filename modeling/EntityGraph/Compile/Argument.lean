import EntityGraph.Argument.Filter
import EntityGraph.Compile.Entity

/-!
The input types of list arguments. A filter input has an operator input for every field of the
persisted shape that is a scalar under any number of arrays, and lists of itself under `AND` and
`OR`; a sort input has a direction for every field that is a scalar.
-/

namespace EntityGraph

/-! ### Operator inputs -/

/-- The operator input of a scalar kind. -/
def operatorInputName : ScalarKind → String
  | .string => "StringFilter"
  | .number => "FloatFilter"
  | .boolean => "BooleanFilter"
  | .date => "DateTimeFilter"

/-- The operator input of identifiers. -/
def idFilterInput : String := "IDFilter"

/-- Operators with one operand. -/
def operators (names : List String) (scalar : String) : List InputField :=
  names.map fun n => .plain n (.named scalar)

/-- Operators with a list of operands. -/
def listOperators (scalar : String) : List InputField :=
  ["in", "nin"].map fun n => .plain n (.list (.named scalar))

/-- The operator input of a scalar that is ordered. -/
def orderedInput (name scalar : String) : InputType :=
  ⟨name, none, operators ["eq", "ne", "gt", "gte", "lt", "lte"] scalar ++ listOperators scalar⟩

/-- The operator inputs that all filters share. -/
def operatorInputs : List InputType :=
  [ orderedInput (operatorInputName .string) stringScalar,
    orderedInput (operatorInputName .number) floatScalar,
    orderedInput (operatorInputName .date) dateTimeScalar,
    ⟨operatorInputName .boolean, none, operators ["eq", "ne"] booleanScalar⟩,
    ⟨idFilterInput, none, operators ["eq", "ne"] idScalar ++ listOperators idScalar⟩ ]

/-! ### Fields that can be filtered and sorted by -/

namespace Entity

/-- The fields to filter by, with their operator inputs. -/
def filterFields (e : Entity) : List (String × String) :=
  (idField, idFilterInput) :: e.dataTypes.filterMap fun p =>
    p.2.scalarLeaf?.map fun k => (p.1, operatorInputName k)

/-- The fields to sort by. -/
def sortFields (e : Entity) : List String :=
  idField :: (e.dataTypes.filter fun p => p.2.scalarKind?.isSome).map Prod.fst

/-- The name of the filter input of an entity. -/
def filterInputName (e : Entity) : String := OutputOptions.entityType.typeName e.aliasName ++ "Filter"

/-- The name of the sort input of an entity. -/
def sortInputName (e : Entity) : String := OutputOptions.entityType.typeName e.aliasName ++ "Sort"

end Entity

namespace Compile

/-- The lists of filters that a filter input holds. -/
def joinedFilters (typeName : String) : List InputField :=
  [.plain Argument.andKey (.nonNullList typeName), .plain Argument.orKey (.nonNullList typeName)]

/-- Compiles the filter input of an entity and answers its name. -/
def filterInput (e : Entity) : Compile String := do
  let name := e.filterInputName
  unlessReserved name (.filterInput e.filterFields) do
    let own := e.filterFields.map fun f => InputField.plain f.1 (.named f.2)
    let fields ← addFields name InputField.name [] (own ++ joinedFilters name)
    change fun r => r.finishInput name
      ⟨name, some ("Filter for " ++ e.label ++ " records"), fields⟩
  return name

/-- Compiles the sort input of an entity and answers its name. -/
def sortInput (e : Entity) : Compile String := do
  let name := e.sortInputName
  unlessReserved name (.sortInput e.sortFields) do
    let own := e.sortFields.map fun f => InputField.plain f (.named sortDirectionEnum)
    let fields ← addFields name InputField.name [] own
    change fun r => r.finishInput name
      ⟨name, some "Sort order; earlier keys take precedence", fields⟩
  return name

end Compile

end EntityGraph
