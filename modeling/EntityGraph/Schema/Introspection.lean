import EntityGraph.Graph.Directive
import EntityGraph.Reachable
import EntityGraph.Schema.Basic

/-!
The types by which an interface describes itself, and the fields of the query root that lead to
them. An interface has them unless its settings say otherwise. A type of the catalog that bears the
name of one of them takes its place among the types that requests are judged by; what the
description itself answers stays the same.
-/

namespace EntityGraph

namespace Introspection

/-! ### Names -/

/-- The types of the description. -/
def schemaType : String := "__Schema"
def typeType : String := "__Type"
def fieldType : String := "__Field"
def inputValueType : String := "__InputValue"
def enumValueType : String := "__EnumValue"
def directiveType : String := "__Directive"
def typeKindEnum : String := "__TypeKind"
def placeEnum : String := "__DirectiveLocation"

/-! ### References -/

/-- A named type without null. -/
def one (name : String) : TypeRef := .nonNull (.named name)

/-- A list without null. -/
def every (name : String) : TypeRef := .nonNull (.nonNullList name)

/-! ### Fields -/

/-- A part of a description. -/
def detail (name : String) (t : TypeRef) : FieldDef := ⟨name, t, none, [], .detail name⟩

/-- A part of the description of an interface. -/
def described (name description : String) (t : TypeRef) : FieldDef :=
  ⟨name, t, some description, [], .detail name⟩

/-- The argument that also asks for what is deprecated. -/
def deprecatedArgument : List InputField :=
  [⟨"includeDeprecated", one booleanScalar, none, some "false"⟩]

/-- The fields that name and describe a member of a type. -/
def naming : List FieldDef :=
  [detail "name" (one stringScalar), detail "description" (.named stringScalar)]

/-- The arguments that a field or a directive takes. -/
def taken : FieldDef := ⟨"args", every inputValueType, none, deprecatedArgument, .detail "args"⟩

/-- The fields that tell whether a member of a type is deprecated. -/
def deprecation : List FieldDef :=
  [detail "isDeprecated" (one booleanScalar), detail "deprecationReason" (.named stringScalar)]

/-- A field of the description of a type. -/
def aspect (a : TypeAspect) (t : TypeRef) (arguments : List InputField) : FieldDef :=
  ⟨a.text, t, none, arguments, .typeAspect a⟩

/-- The fields of the description of an interface. -/
def schemaFields : List FieldDef :=
  [ described "description"
      "description of __Schema for newer graphiql introspection schema\nrequirements"
      (one stringScalar),
    described "types" "A list of all types supported by this server." (every typeType),
    described "queryType" "The type that query operations will be rooted at." (one typeType),
    described "mutationType"
      "If this server supports mutation, the type that mutation operations will\nbe rooted at."
      (.named typeType),
    described "subscriptionType"
      ("If this server support subscription, the type that subscription\n" ++
        "operations will be rooted at.")
      (.named typeType),
    described "directives" "A list of all directives supported by this server."
      (every directiveType) ]

/-- The fields of the description of a type. -/
def typeFields : List FieldDef :=
  [ aspect .kind (one typeKindEnum) [],
    aspect .name (.named stringScalar) [],
    aspect .description (.named stringScalar) [],
    aspect .fields (.nonNullList fieldType) deprecatedArgument,
    aspect .interfaces (.nonNullList typeType) [],
    aspect .possibleTypes (.nonNullList typeType) [],
    aspect .enumValues (.nonNullList enumValueType) deprecatedArgument,
    aspect .inputFields (.nonNullList inputValueType) deprecatedArgument,
    aspect .ofType (.named typeType) [],
    aspect .specifiedByURL (.named stringScalar) [],
    aspect .isOneOf (.named booleanScalar) [] ]

/-- The fields of the description of a field. -/
def fieldFields : List FieldDef := naming ++ [taken, detail "type" (one typeType)] ++ deprecation

/-- The fields of the description of an argument or of a field of an input type. -/
def inputValueFields : List FieldDef :=
  naming ++ [detail "type" (one typeType), detail "defaultValue" (.named stringScalar)] ++
    deprecation

/-- The fields of the description of a directive. -/
def directiveFields : List FieldDef :=
  naming ++ [detail "locations" (every placeEnum), taken, detail "isRepeatable" (one booleanScalar)]

/-! ### Items -/

/-- The kinds of types. -/
def typeKinds : List (String × String) :=
  [ ("SCALAR", "Indicates this type is a scalar."),
    ("OBJECT", "Indicates this type is an object. `fields` and `interfaces` are valid\nfields."),
    ("INTERFACE",
      "Indicates this type is an interface. `fields` and `possibleTypes` are\nvalid fields."),
    ("UNION", "Indicates this type is a union. `possibleTypes` is a valid field."),
    ("ENUM", "Indicates this type is an enum. `enumValues` is a valid field."),
    ("INPUT_OBJECT", "Indicates this type is an input object. `inputFields` is a valid field."),
    ("LIST", "Indicates this type is a list. `ofType` is a valid field."),
    ("NON_NULL", "Indicates this type is a non-null. `ofType` is a valid field.") ]

/-- A place where directives may stand. -/
def place (name what : String) : String × String := (name, "Location adjacent to " ++ what ++ ".")

/-- The places where directives may stand. -/
def places : List (String × String) :=
  [ place "QUERY" "a query operation",
    place "MUTATION" "a mutation operation",
    place "SUBSCRIPTION" "a subscription operation",
    place "FIELD" "a field",
    place "FRAGMENT_DEFINITION" "a fragment definition",
    place "FRAGMENT_SPREAD" "a fragment spread",
    place "INLINE_FRAGMENT" "an inline fragment",
    place "VARIABLE_DEFINITION" "a variable definition",
    place "SCHEMA" "a schema definition",
    place "SCALAR" "a scalar definition",
    place "OBJECT" "an object type definition",
    place "FIELD_DEFINITION" "a field definition",
    place "ARGUMENT_DEFINITION" "an argument definition",
    place "INTERFACE" "an interface definition",
    place "UNION" "a union definition",
    place "ENUM" "an enum definition",
    place "ENUM_VALUE" "an enum value definition",
    place "INPUT_OBJECT" "an input object type definition",
    place "INPUT_FIELD_DEFINITION" "an input object field definition" ]

/-! ### Types -/

/-- The type of the description of an interface. -/
def schemaObject : ObjectType :=
  ⟨schemaType,
    some ("A GraphQL Schema defines the capabilities of a GraphQL server. It exposes\n" ++
      "all available types and directives on the server, as well as the entry\n" ++
      "points for query, mutation, and subscription operations."),
    schemaFields⟩

/-- The type of the description of a type. -/
def typeObject : ObjectType :=
  ⟨typeType,
    some ("The fundamental unit of any GraphQL Schema is the type. There are many kinds\n" ++
      "of types in GraphQL as represented by the `__TypeKind` enum.\n\n" ++
      "Depending on the kind of a type, certain fields describe information about\n" ++
      "that type. Scalar types provide no information beyond a name and\n" ++
      "description, while Enum types provide their values. Object and Interface\n" ++
      "types provide the fields they describe. Abstract types, Union and Interface,\n" ++
      "provide the Object types possible at runtime. List and NonNull types compose\n" ++
      "other types."),
    typeFields⟩

/-- The type of the description of a field. -/
def fieldObject : ObjectType :=
  ⟨fieldType,
    some ("Object and Interface types are described by a list of Fields, each of which\n" ++
      "has a name, potentially a list of arguments, and a return type."),
    fieldFields⟩

/-- The type of the description of an argument or of a field of an input type. -/
def inputValueObject : ObjectType :=
  ⟨inputValueType,
    some ("Arguments provided to Fields or Directives and the input fields of an\n" ++
      "InputObject are represented as Input Values which describe their type and\n" ++
      "optionally a default value."),
    inputValueFields⟩

/-- The type of the description of an item of an enum. -/
def enumValueObject : ObjectType :=
  ⟨enumValueType,
    some ("One possible value for a given Enum. Enum values are unique values, not a\n" ++
      "placeholder for a string or numeric value. However an Enum value is returned\n" ++
      "in a JSON response as a string."),
    naming ++ deprecation⟩

/-- The type of the description of a directive. -/
def directiveObject : ObjectType :=
  ⟨directiveType,
    some ("A Directive provides a way to describe alternate runtime execution and type\n" ++
      "validation behavior in a GraphQL document.\n\n" ++
      "In some cases, you need to provide options to alter GraphQL's execution\n" ++
      "behavior in ways field arguments will not suffice, such as conditionally\n" ++
      "including or skipping a field. Directives provide this by describing\n" ++
      "additional information to the executor."),
    directiveFields⟩

/-- The types of the description. -/
def types : List TypeDef :=
  [ .object schemaObject, .object typeObject, .object fieldObject, .object inputValueObject,
    .object enumValueObject, .object directiveObject,
    .enum typeKindEnum (some "An enum describing what kind of type a given `__Type` is.") typeKinds,
    .enum placeEnum
      (some ("A Directive can be adjacent to many parts of the GraphQL language, a\n" ++
        "__DirectiveLocation describes one such possible adjacencies."))
      places ]

/-- The types that the description is answered by. -/
def schema : Schema := .ofTypes (types ++ Schema.builtInTypes) .standard

/-! ### The query root -/

/-- The fields that lead to the description. -/
def rootFields : List FieldDef :=
  [ ⟨"__schema", one schemaType, none, [], .description⟩,
    ⟨"__type", .named typeType, none, [.plain "name" (one stringScalar)], .typeNamed⟩ ]

/-- Adds the fields to the query root. -/
def addRootFields : TypeDef → TypeDef
  | .object o =>
    .object (if o.name = queryRoot then { o with fields := o.fields ++ rootFields } else o)
  | d => d

end Introspection

namespace TypeDef

/-- The types that a definition mentions. -/
def mentions : TypeDef → List String
  | .object o => o.fields.flatMap fun f => f.type.base :: f.arguments.map fun a => a.type.base
  | .input i => i.fields.map fun f => f.type.base
  | .scalar .. | .enum .. => []

end TypeDef

namespace Schema

/-- The types that the type of a name mentions. -/
def mentionedBy (s : Schema) (name : String) : List String :=
  ((s.type? name).map TypeDef.mentions).getD []

/-- The names of the types. -/
def typeNames (s : Schema) : List String := Fields.keys s.types

/-- The types of the description that an interface without them takes in: those that it reaches
from the description of an interface through types that it takes in. -/
def missingTypes (s : Schema) : List TypeDef :=
  let missing (name : String) : Bool := (s.type? name).isNone
  let next (name : String) : List String := (Introspection.schema.mentionedBy name).filter missing
  let names := reachable next Introspection.schema.typeNames
    ([Introspection.schemaType].filter missing)
  Introspection.types.filter fun t => names.contains t.name

/-- The schema that describes itself. -/
def describing (s : Schema) : Schema :=
  { s with
    types := (s.types.map fun t => (t.1, Introspection.addRootFields t.2)) ++
      s.missingTypes.map fun t => (t.name, t) }

/-- The schema that requests are answered by. -/
def published (s : Schema) : Schema := if s.settings.introspection then s.describing else s

end Schema

end EntityGraph
