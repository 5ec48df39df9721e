import EntityGraph.Compile.Property

/-!
The types of entities: a public type, a persisted type and an input type, each with the
identifier as its first field. A reference to an entity is compiled like the entity itself, for
the same use. An entity that is met again while its type is under construction is referred to by
name, so every chain of references ends before it is longer than the catalog.
-/

namespace EntityGraph

/-- What a compilation reads: the catalog and the public projections. -/
structure CompileContext where
  catalog : Catalog
  projections : ProjectionSet

namespace CompileContext

variable (x : CompileContext)

/-- The fields that the type of an entity is compiled from. -/
def fieldsOf (u : TypeUse) (e : Entity) : List (String × ProjectedField) :=
  match u with
  | .output o =>
    match o.fields, x.projections.get? e.aliasName with
    | .projected, some p => p.fields e
    | _, _ => e.persistedFields
  | .input => e.persistedFields

/-- The field of the identifier. -/
def idFieldDef : FieldDef := .stored idField (.named idScalar)

/-- Compiles one entity, given how the entities it refers to are compiled. -/
def enterEntity (u : TypeUse) (enter : Entity → Compile String) (e : Entity) : Compile String := do
  let name := u.typeName e.aliasName
  Compile.checkName name
  let fields := x.fieldsOf u e
  Compile.unlessReserved name (u.entitySignature e.aliasName fields) do
    let defs ← Compile.entityFields x.catalog u enter name [idFieldDef] fields
    Compile.change (u.finish name (some (u.description e)) defs)
  return name

/-- Compiles an entity along chains of at most so many references. -/
def entityTypeWithin (u : TypeUse) : Nat → Entity → Compile String
  | 0, _ => Compile.stop .chainTooLong
  | n + 1, e => x.enterEntity u (entityTypeWithin u n) e

/-- A length that no chain of references exceeds: the entity it starts from, every entity of the
catalog, and one that is met again. -/
def chainLimit : Nat := x.catalog.entities.length + 2

/-- Compiles the type of an entity and answers its name. -/
def entityType (u : TypeUse) (e : Entity) : Compile String := x.entityTypeWithin u x.chainLimit e

/-- Compiles the type of a property under a name. -/
def propertyType (u : TypeUse) (name : String) (t : PropertyType) : Compile TypeRef :=
  Compile.propertyType x.catalog u (x.entityType u) name t

end CompileContext

end EntityGraph
