import EntityGraph.Compile.Argument
import EntityGraph.Schema.Settings

/-!
Schemas: the types of an interface by name, and the check that they fit together.
-/

namespace EntityGraph

/-- The root types. -/
def queryRoot : String := "Query"
def mutationRoot : String := "Mutation"

/-- The types of an interface, and its settings. -/
structure Schema where
  types : List (String × TypeDef)
  settings : Settings
deriving Repr

namespace Schema

/-- The type of a name. -/
def type? (s : Schema) (name : String) : Option TypeDef := Fields.get? s.types name

/-- The object type of a name. -/
def object? (s : Schema) (name : String) : Option ObjectType :=
  match s.type? name with
  | some (.object o) => some o
  | _ => none

/-- Types registered one after the other. A later type replaces an earlier one of its name. -/
def ofTypes (types : List TypeDef) (settings : Settings) : Schema :=
  ⟨Fields.ofList (types.map fun t => (t.name, t)), settings⟩

/-! ### The types that every interface has -/

/-- The scalar of timestamps. -/
def dateTimeType : TypeDef :=
  .scalar dateTimeScalar (some "An RFC 3339 date-time string, e.g. 2024-01-15T10:30:00Z")

/-- The names of the sort directions. -/
def ascendingItem : String := "ASC"
def descendingItem : String := "DESC"

/-- The enum of sort directions. -/
def sortDirectionType : TypeDef :=
  .enum sortDirectionEnum none
    [(ascendingItem, "Ascending order"), (descendingItem, "Descending order")]

/-- The types that are registered before the generated ones. -/
def sharedTypes : List TypeDef :=
  dateTimeType :: sortDirectionType :: operatorInputs.map .input

/-- The descriptions of the built-in scalars. -/
def builtInDescription? (name : String) : Option String :=
  if name = stringScalar then
    some ("The `String` scalar type represents textual data, represented as UTF-8\n" ++
      "character sequences. The String type is most often used by GraphQL to\n" ++
      "represent free-form human-readable text.")
  else if name = intScalar then
    some "The `Int` scalar type represents non-fractional whole numeric values."
  else if name = floatScalar then
    some ("The `Float` scalar type represents signed double-precision fractional values as " ++
      "specified by [IEEE 754](https://en.wikipedia.org/wiki/IEEE_floating_point).")
  else if name = booleanScalar then some "The `Boolean` scalar type represents `true` or `false`."
  else none

/-- The built-in scalars, which no other type may be named after. -/
def builtInTypes : List TypeDef := builtInScalars.map fun n => .scalar n (builtInDescription? n)

/-! ### Checking -/

/-- Names that are reserved for the schema itself. -/
def isReserved (name : String) : Bool := "__".isPrefixOf name

/-- A condition that must hold, and what to say when it does not. -/
def require (holds : Bool) (reason : String) : Except String Unit :=
  if holds then .ok () else .error reason

/-- The type at the bottom of a reference exists and has a property. -/
def checkRef (s : Schema) (t : TypeRef) (fits : TypeDef → Bool) (reason : String) :
    Except String Unit :=
  match s.type? t.base with
  | none => .error ("Type " ++ t.base ++ " not found")
  | some d => require (fits d) ("Type " ++ t.base ++ " " ++ reason)

/-- Arguments and input fields have input types. -/
def checkInputField (s : Schema) (f : InputField) : Except String Unit := do
  require (!isReserved f.name) ("Name " ++ f.name ++ " is reserved")
  s.checkRef f.type TypeDef.isInput "is not an input type"

/-- Fields have output types. -/
def checkField (s : Schema) (f : FieldDef) : Except String Unit := do
  require (!isReserved f.name) ("Name " ++ f.name ++ " is reserved")
  s.checkRef f.type TypeDef.isOutput "is not an output type"
  f.arguments.forM s.checkInputField

/-- The fields of a type fit. -/
def checkType (s : Schema) : TypeDef → Except String Unit
  | .object o => o.fields.forM s.checkField
  | .input i => i.fields.forM s.checkInputField
  | .scalar .. | .enum .. => .ok ()

/-- Every type fits. -/
def check (s : Schema) : Except SchemaError Unit :=
  match s.types.forM fun t => s.checkType t.2 with
  | .ok () => .ok ()
  | .error reason => .error (.unfinished reason)

end Schema

end EntityGraph
