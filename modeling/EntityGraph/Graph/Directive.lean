import EntityGraph.Graph.Definition

/-!
The directives that every interface knows, and the places where each may stand. Only `skip` and
`include` may stand in a request, on any selection.
-/

namespace EntityGraph

/-- A directive: what it does, where it may stand, and its arguments. -/
structure DirectiveDef where
  name : String
  description : String
  places : List String
  arguments : List InputField
deriving DecidableEq, Repr

namespace DirectiveDef

/-- The places of selections. -/
def selectionPlaces : List String := ["FIELD", "FRAGMENT_SPREAD", "INLINE_FRAGMENT"]

/-- The name of the condition of a directive. -/
def conditionKey : String := "if"

/-- A directive on selections that depends on a condition. -/
def conditional (name description condition : String) : DirectiveDef :=
  ⟨name, description, selectionPlaces,
    [⟨conditionKey, .nonNull (.named booleanScalar), some condition, none⟩]⟩

/-- The mark of what should no longer be used. -/
def deprecated : DirectiveDef :=
  ⟨"deprecated", "Marks an element of a GraphQL schema as no longer supported.",
    ["FIELD_DEFINITION", "ARGUMENT_DEFINITION", "INPUT_FIELD_DEFINITION", "ENUM_VALUE"],
    [ ⟨"reason", .named stringScalar,
        some "A reason for why it is deprecated, formatted using Markdown syntax",
        some "\"No longer supported\""⟩ ]⟩

/-- Keeps a selection only when its condition holds. -/
def includeIf : DirectiveDef :=
  conditional "include"
    ("Directs the executor to include this field or fragment only when the `if` argument is " ++
      "true.")
    "Included when true."

/-- The mark of input types of which exactly one field is given. -/
def oneOf : DirectiveDef :=
  ⟨"oneOf",
    "Indicates that an Input Object is a OneOf Input Object (and thus requires exactly one of " ++
      "its field be provided)",
    ["INPUT_OBJECT"], []⟩

/-- Leaves a selection out when its condition holds. -/
def skipIf : DirectiveDef :=
  conditional "skip"
    "Directs the executor to skip this field or fragment when the `if` argument is true."
    "Skipped when true."

/-- Where the behaviour of a scalar is laid down. -/
def specifiedBy : DirectiveDef :=
  ⟨"specifiedBy",
    "Provides a scalar specification URL for specifying the behavior of custom scalar types.",
    ["SCALAR"],
    [ ⟨"url", .nonNull (.named stringScalar),
        some "URL that specifies the behavior of this scalar.", none⟩ ]⟩

/-- The directives, by name. -/
def all : List DirectiveDef := [deprecated, includeIf, oneOf, skipIf, specifiedBy]

/-- The directive of a name. -/
def get? (name : String) : Option DirectiveDef := all.find? fun d => d.name = name

/-- The directive may stand on a selection. -/
def onSelections (d : DirectiveDef) : Bool := d.places = selectionPlaces

end DirectiveDef

end EntityGraph
