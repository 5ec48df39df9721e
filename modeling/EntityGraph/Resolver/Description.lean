import EntityGraph.Document.Reader
import EntityGraph.Resolver.Query
import EntityGraph.Schema.Introspection

/-!
The description of an interface as values. A type is passed on by the text of its reference, so
that types that refer to each other in circles are described one step at a time. Described are
the types that can be reached from the roots, and those that every interface has.
-/

namespace EntityGraph

/-! ### Members of types -/

namespace Introspection

/-- A type, passed on by its text. -/
def typeValue (t : TypeRef) : Value := .str t.text

/-- The type that is passed on. -/
def typeOf? : Value → Option TypeRef
  | .str s => (Document.Reader.bareType? s.toList).map Prod.fst
  | _ => none

/-- A text that may be absent. -/
def textValue : Option String → Value
  | some s => .str s
  | none => .null

/-- A member of a type, which is never deprecated. -/
def member (name : String) (description : Option String) (more : List (String × Value)) : Value :=
  .object (("name", .str name) :: ("description", textValue description) ::
    ("isDeprecated", .bool false) :: more)

/-- An argument or a field of an input type. -/
def inputValue (f : InputField) : Value :=
  member f.name f.description
    [("type", typeValue f.type), ("defaultValue", textValue f.default)]

/-- A field of an object type. -/
def fieldValue (f : FieldDef) : Value :=
  member f.name f.description
    [("args", .list (f.arguments.map inputValue)), ("type", typeValue f.type)]

/-- An item of an enum. -/
def itemValue (i : String × String) : Value := member i.1 (some i.2) []

/-- A directive. -/
def directiveValue (d : DirectiveDef) : Value :=
  .object
    [ ("name", .str d.name), ("description", .str d.description),
      ("locations", .list (d.places.map .item)),
      ("args", .list (d.arguments.map inputValue)), ("isRepeatable", .bool false) ]

end Introspection

open Introspection

/-! ### Types -/

namespace TypeDef

/-- The kind of a type. -/
def kind : TypeDef → String
  | .scalar .. => "SCALAR"
  | .enum .. => "ENUM"
  | .object _ => "OBJECT"
  | .input _ => "INPUT_OBJECT"

/-- The description of a type. -/
def description? : TypeDef → Option String
  | .scalar _ d => d
  | .enum _ d _ => d
  | .object o => o.description
  | .input i => i.description

/-- The fields that an object type shows. -/
def shownFields? : TypeDef → Option (List FieldDef)
  | .object o => some (o.fields.filter fun f => !Schema.isReserved f.name)
  | _ => none

/-- An aspect of a named type. An aspect that it does not have is absent. -/
def aspect? (d : TypeDef) : TypeAspect → Option Value
  | .kind => some (.item d.kind)
  | .name => some (.str d.name)
  | .description => d.description?.map .str
  | .fields => d.shownFields?.map fun fs => .list (fs.map fieldValue)
  | .interfaces => d.shownFields?.map fun _ => .list []
  | .enumValues =>
    match d with
    | .enum _ _ is => some (.list (is.map itemValue))
    | _ => none
  | .inputFields =>
    match d with
    | .input i => some (.list (i.fields.map inputValue))
    | _ => none
  | .isOneOf =>
    match d with
    | .input _ => some (.bool false)
    | _ => none
  | .possibleTypes | .ofType | .specifiedByURL => none

end TypeDef

/-- An aspect of a type around another one. -/
def wrapperAspect? (kind : String) (inner : TypeRef) : TypeAspect → Option Value
  | .kind => some (.item kind)
  | .ofType => some (typeValue inner)
  | _ => none

namespace Schema

variable (s : Schema)

/-- An aspect of a type. -/
def aspect? (t : TypeRef) (a : TypeAspect) : Option Value :=
  match t with
  | .named n => (s.type? n).bind fun d => d.aspect? a
  | .list u => wrapperAspect? "LIST" u a
  | .nonNull u => wrapperAspect? "NON_NULL" u a

/-! ### Visible types -/

/-- Types that every interface has. -/
def isSystem (name : String) : Bool := isReserved name || builtInScalars.contains name

/-- The types that are described, in the order of their names: those that can be reached from the
roots and from the types that every interface has. -/
def visible : List String :=
  let seen := reachable s.mentionedBy s.typeNames
    (queryRoot :: mutationRoot :: s.typeNames.filter isSystem)
  (s.typeNames.filter seen.contains).mergeSort fun a b => a ≤ b

/-- The description of the interface. -/
def description : Value :=
  .object
    [ ("description", .str "TODO"),
      ("types", .list (s.visible.map fun n => typeValue (.named n))),
      ("queryType", typeValue (.named queryRoot)),
      ("mutationType", typeValue (.named mutationRoot)),
      ("directives", .list (DirectiveDef.all.map directiveValue)) ]

end Schema

namespace Resolver

variable {σ : Type}

/-- The visible type of the name that the arguments give. -/
def typeNamed (s : Schema) (args : Argument.Arguments) : Resolve σ :=
  match Fields.get? args "name" with
  | some (.str n) => answer (if s.visible.contains n then some (typeValue (.named n)) else none)
  | _ => answer none

/-- An aspect of the type that is passed on. -/
def typeAspect (s : Schema) (a : TypeAspect) (parent : Value) : Resolve σ :=
  answer ((typeOf? parent).bind fun t => s.aspect? t a)

end Resolver

end EntityGraph
