import EntityGraph.Catalog.Basic

/-!
Catalog documents: the entities as a document lists them, before their aliases and descriptors
are judged. A record of the document is an object, whose unknown keys are ignored, or the list of
its fields in the order of their declaration, of which the last may be left out.
-/

namespace EntityGraph

/-- An entity as a document writes it. -/
structure EntityDocument where
  aliasName : String
  displayName : Option String
  icon : Option String
  maxOne : Bool
  properties : List (String × Json)
deriving Repr

/-- The entities of a document. -/
structure CatalogDocument where
  entities : List EntityDocument
deriving Repr

/-! ### Judging a document -/

/-- The error of a refused descriptor, at its entity and property. -/
def DescriptorError.at (entity property : String) : DescriptorError → DefinitionError
  | .unknownType tag => .unknownPropertyType entity property tag
  | .malformed path fault => .malformedProperty entity property (place path fault)

namespace EntityDocument

/-- The properties of an entity, in order. The first descriptor that is refused decides. -/
def readProperties (aliasName : String) :
    List (String × Json) → Except DefinitionError (List (String × Property))
  | [] => .ok []
  | (name, d) :: rest =>
    match Property.ofDescriptor d with
    | .error e => .error (e.at aliasName name)
    | .ok p => (readProperties aliasName rest).map ((name, p) :: ·)

/-- The entity of a document: its alias is judged before its properties. -/
def toEntity (d : EntityDocument) : Except DefinitionError Entity := do
  let e ← Entity.create d.aliasName
  let ps ← readProperties d.aliasName d.properties
  return { e with
    displayName := d.displayName, icon := d.icon, maxOne := d.maxOne, properties := ps }

end EntityDocument

namespace CatalogDocument

/-- Reads entities one after the other. The first that is refused decides. -/
def readEntities : List EntityDocument → Except DefinitionError (List Entity)
  | [] => .ok []
  | d :: ds => do
    let e ← d.toEntity
    let es ← readEntities ds
    return e :: es

/-- The catalog of a document: all entities are read before aliases and references are
compared. -/
def toCatalog (d : CatalogDocument) : Except DefinitionError Catalog := do
  let es ← readEntities d.entities
  Catalog.ofEntities es

end CatalogDocument

/-! ### Documents in JSON -/

namespace Json

/-- A text that may be absent or null. -/
def optionalText? : Option Json → Option (Option String)
  | none => some none
  | some .null => some none
  | some (.str s) => some (some s)
  | some _ => none

/-- A flag that may be absent. -/
def flag? : Option Json → Option Bool
  | none => some false
  | some (.bool b) => some b
  | some _ => none

/-- An object that may be absent. -/
def table? : Option Json → Option (List (String × Json))
  | none => some []
  | some (.obj fs) => some fs
  | some _ => none

end Json

open Json

/-- The keys of an entity in the order of their declaration. -/
def EntityDocument.fieldNames : List String :=
  ["alias", "display_name", "icon", "max_one", "properties"]

/-- Reads an entity of a JSON document. -/
def EntityDocument.ofJson? (v : Json) : Option EntityDocument := do
  let fs ← v.fieldsOf? fieldNames
  let aliasName ← (Fields.get? fs "alias").bind Json.asString?
  let displayName ← optionalText? (Fields.get? fs "display_name")
  let icon ← optionalText? (Fields.get? fs "icon")
  let maxOne ← flag? (Fields.get? fs "max_one")
  let properties ← table? (Fields.get? fs "properties")
  return { aliasName, displayName, icon, maxOne, properties }

/-- Reads a JSON document. -/
def CatalogDocument.ofJson? (v : Json) : Option CatalogDocument := do
  let fs ← v.fieldsOf? ["entities"]
  match Fields.get? fs "entities" with
  | none => return ⟨[]⟩
  | some (.arr xs) =>
    let es ← xs.mapM EntityDocument.ofJson?
    return ⟨es⟩
  | some _ => none

/-- Loads a catalog from a JSON value. -/
def Catalog.ofJson (v : Json) : Except DefinitionError Catalog :=
  match CatalogDocument.ofJson? v with
  | some d => d.toCatalog
  | none => .error (.badDocument .json)

end EntityGraph
