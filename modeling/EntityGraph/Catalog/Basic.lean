import EntityGraph.Catalog.Error
import EntityGraph.Entity

/-!
Catalogs: the ordered list of entities that an interface is compiled from. An alias occurs once,
and every reference of a catalog that was built in one piece names one of its entities.
-/

namespace EntityGraph

/-- An entity of a valid alias and nothing else. -/
def Entity.create (aliasName : String) : Except DefinitionError Entity :=
  if Name.Valid aliasName then .ok (.bare aliasName) else .error (.invalidAlias aliasName)

/-- Entities in order. -/
structure Catalog where
  entities : List Entity
deriving Repr

namespace Catalog

/-- The catalog without entities. -/
def empty : Catalog := ⟨[]⟩

/-- The aliases, in order. -/
def aliases (c : Catalog) : List String := c.entities.map Entity.aliasName

/-- The entity of an alias. -/
def get? (c : Catalog) (aliasName : String) : Option Entity :=
  c.entities.find? fun e => e.aliasName = aliasName

/-- An alias is present. -/
def contains (c : Catalog) (aliasName : String) : Bool := (c.get? aliasName).isSome

/-- Adds an entity at the end. -/
def add (c : Catalog) (e : Entity) : Except DefinitionError Catalog :=
  if c.contains e.aliasName then .error (.duplicateAlias e.aliasName)
  else .ok ⟨c.entities ++ [e]⟩

/-- Adds entities one after the other. The first alias that is there already decides. -/
def addAll : Catalog → List Entity → Except DefinitionError Catalog
  | c, [] => .ok c
  | c, e :: es => (c.add e).bind fun c => c.addAll es

/-! ### References -/

/-- The references of an entity with the property each occurs in, in order. -/
def entityReferences (e : Entity) : List (String × String) :=
  e.propertyTypes.flatMap fun p => p.2.references.map fun target => (p.1, target)

/-- All references of the catalog: entity, property, target. -/
def references (c : Catalog) : List (String × String × String) :=
  c.entities.flatMap fun e => (entityReferences e).map fun r => (e.aliasName, r)

/-- The first reference that names no entity of the catalog. -/
def danglingReference? (c : Catalog) : Option (String × String × String) :=
  c.references.find? fun r => !c.contains r.2.2

/-- Every reference names an entity of the catalog. -/
def validateReferences (c : Catalog) : Except DefinitionError Unit :=
  match c.danglingReference? with
  | some (entity, property, target) => .error (.unknownReference entity property target)
  | none => .ok ()

/-- The catalog of entities, with distinct aliases and resolved references. -/
def ofEntities (es : List Entity) : Except DefinitionError Catalog := do
  let c ← empty.addAll es
  c.validateReferences
  return c

/-! ### Looking up -/

theorem contains_iff {c : Catalog} {aliasName : String} :
    c.contains aliasName = true ↔ aliasName ∈ c.aliases := by
  simp [contains, get?, aliases, List.find?_isSome]

theorem get?_alias {c : Catalog} {aliasName : String} {e : Entity} (h : c.get? aliasName = some e) :
    e.aliasName = aliasName := by
  simpa using List.find?_some h

theorem mem_of_get? {c : Catalog} {aliasName : String} {e : Entity} (h : c.get? aliasName = some e) :
    e ∈ c.entities := List.mem_of_find?_eq_some h

end Catalog

end EntityGraph
