import EntityGraph.Schema.Basic

/-!
The root fields of an entity: four queries, or five with the accessor of the single record in
place of the look-up by identifier, and three mutations.
-/

namespace EntityGraph

/-- The names of the types that the root fields of an entity refer to. -/
structure EntityTypes where
  publicType : String
  entityType : String
  filter : String
  sort : String
  input : String
deriving DecidableEq, Repr

namespace Entity

variable (e : Entity) (t : EntityTypes)

/-- The argument of a filter. -/
def filterArgument : InputField := .plain "filter" (.named t.filter)

/-- The argument of an identifier. -/
def idArgument : InputField := .plain "id" (.named stringScalar)

/-- The argument of a record. -/
def recordArgument : InputField := .plain "record" (.named t.input)

/-- The arguments of a list. -/
def listArguments : List InputField :=
  [filterArgument t, .plain "sort" (.named t.sort), .plain "skip" (.named intScalar),
    .plain "limit" (.named intScalar)]

/-- A query of the entity. -/
def queryField (name : String) (type : TypeRef) (description : String)
    (arguments : List InputField) (kind : QueryKind) : FieldDef :=
  ⟨name, type, some description, arguments, .query e.aliasName kind⟩

/-- The query that reads one public record. -/
def recordField : FieldDef :=
  if e.maxOne then
    e.queryField e.aliasName (.named t.publicType) ("The " ++ e.label ++ " record") [] .singleton
  else
    e.queryField (e.aliasName ++ "FindById") (.named t.publicType)
      ("Read a single " ++ e.label ++ " record by ID") [idArgument] .findById

/-- The queries of the entity. -/
def queryFields : List FieldDef :=
  [ e.queryField (e.aliasName ++ "Count") (.named intScalar) ("Count " ++ e.label ++ " records")
      [filterArgument t] .count,
    e.queryField (e.aliasName ++ "EntityFindById") (.named t.entityType)
      ("Read a persisted " ++ e.label ++ " record by ID") [idArgument] .findById,
    e.queryField (e.aliasName ++ "List") (.list (.named t.publicType))
      ("List " ++ e.label ++ " records") (listArguments t) .list,
    e.queryField (e.aliasName ++ "EntityList") (.list (.named t.entityType))
      ("List persisted " ++ e.label ++ " records") (listArguments t) .list,
    e.recordField t ]

/-- A mutation of the entity. -/
def mutationField (name : String) (type : TypeRef) (description : String) (argument : InputField)
    (kind : MutationKind) : FieldDef :=
  ⟨name, type, some description, [argument], .mutation e.aliasName kind⟩

/-- The mutations of the entity. -/
def mutationFields : List FieldDef :=
  [ e.mutationField (e.aliasName ++ "Create") (.named t.publicType)
      ("Create a " ++ e.label ++ " record") (recordArgument t) .create,
    e.mutationField (e.aliasName ++ "Update") (.named t.publicType)
      ("Update a " ++ e.label ++ " record by its _id") (recordArgument t) .update,
    e.mutationField (e.aliasName ++ "RemoveById") (.named booleanScalar)
      ("Remove a " ++ e.label ++ " record by ID") idArgument .remove ]

end Entity

end EntityGraph
