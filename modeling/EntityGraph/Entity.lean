import EntityGraph.Name
import EntityGraph.Property.Descriptor

/-!
Entities: an alias that names everything generated for the entity, a label, and ordered
properties. A property carries its type and what an editor shows for it.
-/

namespace EntityGraph

/-- The field that holds the identifier of a record. -/
def idField : String := "_id"

/-- A property: its type, and display data that the compiler does not read. -/
structure Property where
  type : PropertyType
  displayName : Option String
  editor : Option String
  default : Option Json
deriving Repr

namespace Property

/-- A property with a type and nothing else. -/
def plain (t : PropertyType) : Property := ⟨t, none, none, none⟩

/-- The property a descriptor denotes: display data is read from an object only, and a default
may be any value. -/
def ofDescriptor (d : Json) : Except DescriptorError Property :=
  (PropertyType.ofDescriptor d).map fun t =>
    { type := t
      displayName := (d.get? "display_name").bind Json.asString?
      editor := (d.get? "editor").bind Json.asString?
      default := d.get? "default" }

end Property

/-- The description of one entity. -/
structure Entity where
  aliasName : String
  displayName : Option String
  icon : Option String
  maxOne : Bool
  properties : List (String × Property)
deriving Repr

namespace Entity

/-- An entity without properties. -/
def bare (aliasName : String) : Entity := ⟨aliasName, none, none, false, []⟩

/-- Adds a property, or replaces the one of that name in place. -/
def withProperty (e : Entity) (name : String) (p : Property) : Entity :=
  { e with properties := Fields.insert e.properties name p }

/-- The display name, or else the alias. -/
def label (e : Entity) : String := e.displayName.getD e.aliasName

/-- The types of the properties, in order. -/
def propertyTypes (e : Entity) : List (String × PropertyType) :=
  e.properties.map fun p => (p.1, p.2.type)

/-- The properties of a record beside its identifier, with their types. -/
def dataTypes (e : Entity) : List (String × PropertyType) :=
  e.propertyTypes.filter fun p => p.1 ≠ idField

/-- Property names and shape keys are not repeated. -/
def Distinct (e : Entity) : Prop :=
  Fields.Distinct e.properties ∧ ∀ p ∈ e.properties, p.2.type.Distinct

end Entity

end EntityGraph
