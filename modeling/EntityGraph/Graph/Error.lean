import EntityGraph.Graph.Value
import EntityGraph.Repository.Basic

/-!
What can go wrong between a catalog and an answer: a schema that does not compile, an argument
that is refused, and a repository that fails. An answer carries the code of its error.
-/

namespace EntityGraph

/-- Why a catalog does not compile. -/
inductive SchemaError where
  | unknownReference (typeName target : String)
  | conflict (typeName : String)
  | emptyShape (typeName : String)
  | missingRepository (aliasName : String)
  | invalidName (name : String)
  | emptyCatalog
  | unfinished (reason : String)
deriving DecidableEq, Repr

/-- The text of a schema error. -/
def SchemaError.message : SchemaError → String
  | .unknownReference t x => "Type " ++ t ++ " references unknown entity '" ++ x ++ "'"
  | .conflict n => "Type name " ++ n ++ " is already registered with a different definition"
  | .emptyShape n => "Shape " ++ n ++ " has no properties"
  | .missingRepository a => "No repository bound for entity '" ++ a ++ "'"
  | .invalidName n => "Invalid GraphQL name: '" ++ n ++ "'"
  | .emptyCatalog => "Entity catalog is empty"
  | .unfinished r => "Schema validation failed: " ++ r

/-- Why an argument is refused. -/
inductive ArgumentError where
  | notFilter (got : Value)
  | notFilterList (got : Value)
  | notOperators (field : String) (got : Value)
  | unknownOperator (name : String)
  | notSort (got : Value)
  | badDirection (field got : String)
  | notInteger (name : String)
  | negative (name : String) (n : Int)
  | missing (name : String)
  | custom (message : String)
deriving Repr

/-- The text of a refusal. -/
def ArgumentError.message : ArgumentError → String
  | .notFilter v => "filter must be an object, got " ++ v.text
  | .notFilterList v => "expected a list of filters, got " ++ v.text
  | .notOperators f v => "filter on " ++ f ++ " must be an object, got " ++ v.text
  | .unknownOperator n => "unknown filter operator '" ++ n ++ "'"
  | .notSort v => "sort must be an object, got " ++ v.text
  | .badDirection f got => "sort direction for " ++ f ++ " must be ASC or DESC, got " ++ got
  | .notInteger n => n ++ " must be an integer"
  | .negative n v => n ++ " must be non-negative, got " ++ toString v
  | .missing n => "missing required argument '" ++ n ++ "'"
  | .custom m => m

/-- An error of the interface. -/
inductive ApiError where
  | schema (e : SchemaError)
  | argument (e : ArgumentError)
  | repository (e : RepositoryError)
deriving Repr

namespace ApiError

/-- The text of an error. -/
def message : ApiError → String
  | .schema e => "Failed to build GraphQL schema: " ++ e.message
  | .argument e => "Invalid argument: " ++ e.message
  | .repository e => e.message

/-- The code of an error in an answer. -/
def code : ApiError → String
  | .schema _ => "SCHEMA_BUILD_FAILED"
  | .argument _ => "INVALID_ARGUMENT"
  | .repository (.alreadyExists ..) => "CONFLICT"
  | .repository (.invalidRecord _) => "VALIDATION_ERROR"
  | .repository (.connection _) => "STORAGE_ERROR"
  | .repository (.internal _) => "INTERNAL_ERROR"

/-- The category of an error, which only repositories give. -/
def category? : ApiError → Option ErrorCategory
  | .repository e => some e.category
  | _ => none

end ApiError

end EntityGraph
