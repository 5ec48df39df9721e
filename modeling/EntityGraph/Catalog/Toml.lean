import EntityGraph.Catalog.Document
import EntityGraph.Toml.Reader

/-!
Catalog documents in TOML. The records are read as in JSON, except that TOML has no null: a text
that is left out is absent, and surplus elements of a record written as a list are ignored.
-/

namespace EntityGraph

namespace Toml

/-- A text that may be absent. -/
def optionalText? : Option Toml → Option (Option String)
  | none => some none
  | some (.str s) => some (some s)
  | some _ => none

/-- A flag that may be absent. -/
def flag? : Option Toml → Option Bool
  | none => some false
  | some (.bool b) => some b
  | some _ => none

/-- The properties of an entity, which may be absent. -/
def properties? : Option Toml → Option (List (String × Json))
  | none => some []
  | some v => v.toJson?.bind Json.asObject?

/-- The fields of a record that is a table or a list. -/
def fieldsOf? (names : List String) : Toml → Option (List (String × Toml))
  | .table fs => some fs
  | .arr xs => some (names.zip xs)
  | _ => none

end Toml

open Toml

/-- Reads an entity of a TOML document. -/
def EntityDocument.ofToml? (v : Toml) : Option EntityDocument := do
  let fs ← v.fieldsOf? fieldNames
  let aliasName ← (Fields.get? fs "alias").bind fun
    | .str s => some s
    | _ => none
  let displayName ← optionalText? (Fields.get? fs "display_name")
  let icon ← optionalText? (Fields.get? fs "icon")
  let maxOne ← flag? (Fields.get? fs "max_one")
  let properties ← properties? (Fields.get? fs "properties")
  return { aliasName, displayName, icon, maxOne, properties }

/-- Reads the entities of a TOML document. -/
def CatalogDocument.ofToml? (fs : List (String × Toml)) : Option CatalogDocument :=
  match Fields.get? fs "entities" with
  | none => some ⟨[]⟩
  | some (.arr xs) => (xs.mapM EntityDocument.ofToml?).map CatalogDocument.mk
  | some _ => none

/-- Loads a catalog from a TOML document. -/
def Catalog.ofToml (text : String) : Except DefinitionError Catalog :=
  match (Toml.read? text).bind CatalogDocument.ofToml? with
  | some d => d.toCatalog
  | none => .error (.badDocument .toml)

end EntityGraph
