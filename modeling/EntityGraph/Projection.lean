import EntityGraph.Entity
import EntityGraph.Graph.Definition

/-!
Public projections. A projection replaces the properties that the public type of an entity is
compiled from. A projected field has a type and may compute its value from the record; the
persisted shape of the entity stays as it is.
-/

namespace EntityGraph

/-- A field of a public type. -/
structure ProjectedField where
  type : PropertyType
  computation : Option Computation
deriving Repr

namespace ProjectedField

/-- A field that reads the record. -/
def plain (t : PropertyType) : ProjectedField := ⟨t, none⟩

/-- The field computes its value. -/
def isComputed (f : ProjectedField) : Bool := f.computation.isSome

end ProjectedField

/-- The persisted property of an entity as a field of its public type. -/
def Entity.persisted? (e : Entity) (name : String) : Option ProjectedField :=
  (Fields.get? e.properties name).map fun p => .plain p.type

/-- The properties of an entity as fields. -/
def Entity.persistedFields (e : Entity) : List (String × ProjectedField) :=
  e.propertyTypes.map fun p => (p.1, .plain p.2)

/-- A replacement for the public fields of one entity. -/
structure Projection where
  aliasName : String
  plan : Entity → List (String × ProjectedField)

/-- The fields that a projection gives an entity. A name that the plan repeats keeps its place
and its last field. -/
def Projection.fields (p : Projection) (e : Entity) : List (String × ProjectedField) :=
  Fields.ofList (p.plan e)

/-- Projections by alias. -/
structure ProjectionSet where
  bindings : List (String × Projection)

namespace ProjectionSet

/-- The set without projections. -/
def empty : ProjectionSet := ⟨[]⟩

/-- Adds a projection, or replaces the one of its alias. -/
def register (s : ProjectionSet) (p : Projection) : ProjectionSet :=
  ⟨Fields.insert s.bindings p.aliasName p⟩

/-- The projection of an alias. -/
def get? (s : ProjectionSet) (aliasName : String) : Option Projection := Fields.get? s.bindings aliasName

end ProjectionSet

end EntityGraph
