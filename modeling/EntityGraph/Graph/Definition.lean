import EntityGraph.Fields
import EntityGraph.Json.Basic

/-!
Definitions of GraphQL types: references to types by name, fields with where their value comes
from, and the four kinds of types that an interface is made of.
-/

namespace EntityGraph

/-- A reference to a type. -/
inductive TypeRef where
  | named (name : String)
  | list (item : TypeRef)
  | nonNull (type : TypeRef)
deriving DecidableEq, Repr, Inhabited

namespace TypeRef

/-- The text of a reference. -/
def text : TypeRef → String
  | .named n => n
  | .list t => "[" ++ t.text ++ "]"
  | .nonNull t => t.text ++ "!"

/-- The named type at the bottom of a reference. -/
def base : TypeRef → String
  | .named n => n
  | .list t => t.base
  | .nonNull t => t.base

/-- A list of a named type whose items are not null. -/
def nonNullList (name : String) : TypeRef := .list (.nonNull (.named name))

end TypeRef

/-! ### Scalars -/

/-- The names of the built-in scalars. -/
def stringScalar : String := "String"
def intScalar : String := "Int"
def floatScalar : String := "Float"
def booleanScalar : String := "Boolean"
def idScalar : String := "ID"

/-- The scalars that every interface has. -/
def builtInScalars : List String :=
  [stringScalar, intScalar, floatScalar, booleanScalar, idScalar]

/-- The scalar of timestamps. -/
def dateTimeScalar : String := "DateTime"

/-- The enum of sort directions. -/
def sortDirectionEnum : String := "SortDirection"

/-! ### Fields -/

/-- How a computed field gets its value from the record it stands on. -/
inductive Computation where
  | const (value : Json)
  | key (name : String)
  | parent
  | find (aliasName key : String)
  | fail (message : String)
deriving Repr

/-- The reading operations of an entity. -/
inductive QueryKind where
  | count
  | findById
  | list
  | singleton
deriving DecidableEq, Repr

/-- The writing operations of an entity. -/
inductive MutationKind where
  | create
  | update
  | remove
deriving DecidableEq, Repr

/-- The name of a writing operation. -/
def MutationKind.text : MutationKind → String
  | .create => "create"
  | .update => "update"
  | .remove => "remove"

/-- What the description of a type tells about it. -/
inductive TypeAspect where
  | kind
  | name
  | description
  | fields
  | interfaces
  | possibleTypes
  | enumValues
  | inputFields
  | ofType
  | specifiedByURL
  | isOneOf
deriving DecidableEq, Repr

/-- The name of an aspect. -/
def TypeAspect.text : TypeAspect → String
  | .kind => "kind"
  | .name => "name"
  | .description => "description"
  | .fields => "fields"
  | .interfaces => "interfaces"
  | .possibleTypes => "possibleTypes"
  | .enumValues => "enumValues"
  | .inputFields => "inputFields"
  | .ofType => "ofType"
  | .specifiedByURL => "specifiedByURL"
  | .isOneOf => "isOneOf"

/-- Where the value of a field comes from: the record under a key, a computation, an operation on
the records of an entity, or the description of the interface, of which `detail` is what stands
under a key in a part of it. -/
inductive Source where
  | stored (key : String)
  | computed (c : Computation)
  | query (aliasName : String) (kind : QueryKind)
  | mutation (aliasName : String) (kind : MutationKind)
  | description
  | typeNamed
  | typeAspect (a : TypeAspect)
  | detail (key : String)
deriving Repr

namespace Source

/-- The field leads from the records to the description. -/
def entersDescription : Source → Bool
  | .description | .typeNamed => true
  | _ => false

/-- The value of the field is a part of the description. -/
def isDescriptive : Source → Bool
  | .description | .typeNamed | .typeAspect _ | .detail _ => true
  | _ => false

/-- The field stands inside the description. -/
def isInside (s : Source) : Bool := s.isDescriptive && !s.entersDescription

end Source

/-- An argument of a field, or a field of an input type. The default value is kept as its text. -/
structure InputField where
  name : String
  type : TypeRef
  description : Option String
  default : Option String
deriving DecidableEq, Repr

/-- An argument without a description and a default value. -/
def InputField.plain (name : String) (type : TypeRef) : InputField := ⟨name, type, none, none⟩

/-- A field of an object type. -/
structure FieldDef where
  name : String
  type : TypeRef
  description : Option String
  arguments : List InputField
  source : Source
deriving Repr

namespace FieldDef

/-- A field that looks its own name up in the record. -/
def stored (name : String) (t : TypeRef) : FieldDef := ⟨name, t, none, [], .stored name⟩

/-- A field with a computed value. -/
def computed (name : String) (t : TypeRef) (c : Computation) : FieldDef :=
  ⟨name, t, none, [], .computed c⟩

/-- The value of the field is computed. -/
def isComputed (f : FieldDef) : Bool :=
  match f.source with
  | .computed _ => true
  | _ => false

end FieldDef

/-! ### Types -/

/-- An object type. -/
structure ObjectType where
  name : String
  description : Option String
  fields : List FieldDef
deriving Repr

/-- An input type. -/
structure InputType where
  name : String
  description : Option String
  fields : List InputField
deriving Repr, DecidableEq

/-- The definition of a type. The items of an enum have a description each. -/
inductive TypeDef where
  | scalar (name : String) (description : Option String)
  | enum (name : String) (description : Option String) (items : List (String × String))
  | object (o : ObjectType)
  | input (i : InputType)
deriving Repr

namespace TypeDef

/-- The name of a type. -/
def name : TypeDef → String
  | .scalar n _ => n
  | .enum n _ _ => n
  | .object o => o.name
  | .input i => i.name

/-- Types that fields may have. -/
def isOutput : TypeDef → Bool
  | .input _ => false
  | _ => true

/-- Types that arguments and input fields may have. -/
def isInput : TypeDef → Bool
  | .object _ => false
  | _ => true

end TypeDef

end EntityGraph
