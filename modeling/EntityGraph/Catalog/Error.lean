/-!
What can go wrong with the definition of a catalog, and the categories that all errors of the
library are sorted into.
-/

namespace EntityGraph

/-- The categories of errors. -/
inductive ErrorCategory where
  | validation
  | conflict
  | schema
  | serialization
  | infrastructure
  | internal
deriving DecidableEq, Repr

/-- The name of a category. -/
def ErrorCategory.text : ErrorCategory → String
  | .validation => "validation"
  | .conflict => "conflict"
  | .schema => "schema"
  | .serialization => "serialization"
  | .infrastructure => "infrastructure"
  | .internal => "internal"

/-- The formats a catalog is loaded from. -/
inductive DocumentFormat where
  | json
  | toml
deriving DecidableEq, Repr

/-- Why a catalog or a date is refused. -/
inductive DefinitionError where
  | invalidAlias (aliasName : String)
  | duplicateAlias (aliasName : String)
  | unknownPropertyType (entity property tag : String)
  | malformedProperty (entity property message : String)
  | unknownReference (entity property target : String)
  | invalidDateTime (message : String)
  | badDocument (format : DocumentFormat)
deriving DecidableEq, Repr

namespace DefinitionError

/-- The text of an error. -/
def message : DefinitionError → String
  | .invalidAlias a => "Invalid entity alias: '" ++ a ++ "' (must match [_a-zA-Z][_a-zA-Z0-9]*)"
  | .duplicateAlias a => "Duplicate entity alias: " ++ a
  | .unknownPropertyType e p t => "Unknown property type '" ++ t ++ "' for " ++ e ++ "." ++ p
  | .malformedProperty e p m => "Malformed property " ++ e ++ "." ++ p ++ ": " ++ m
  | .unknownReference e p t =>
    "Entity " ++ e ++ " property " ++ p ++ " references unknown entity '" ++ t ++ "'"
  | .invalidDateTime m => "Invalid DateTime: " ++ m
  | .badDocument .json => "JSON serialization error"
  | .badDocument .toml => "TOML parsing error"

/-- The category of an error. -/
def category : DefinitionError → ErrorCategory
  | .invalidAlias _ => .validation
  | .duplicateAlias _ => .conflict
  | .unknownPropertyType .. => .schema
  | .malformedProperty .. => .schema
  | .unknownReference .. => .schema
  | .invalidDateTime _ => .validation
  | .badDocument _ => .serialization

end DefinitionError

end EntityGraph
