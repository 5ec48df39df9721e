import EntityGraph.Document.Expand
import EntityGraph.Validation.Input

/-!
Sites: the places of an operation that the rules speak of, each with the type around it. An
operation is looked at with its fragments in place, so that a fragment is met wherever it is used.
A field that names the type of an object is no site.
-/

namespace EntityGraph

/-- The field of a name in an object type. -/
def ObjectType.field? (o : ObjectType) (name : String) : Option FieldDef :=
  o.fields.find? fun f => f.name = name

namespace TypeDef

/-- The field of a name. -/
def field? (d : TypeDef) (name : String) : Option FieldDef :=
  match d with
  | .object o => o.field? name
  | _ => none

/-- A type with fields. -/
def isObject : TypeDef → Bool
  | .object _ => true
  | _ => false

end TypeDef

/-- A field of a type, as an operation selects it. -/
structure FieldSite where
  parent : Option TypeDef
  name : String
  arguments : List (String × Literal)
  directives : List Directive
  isLeaf : Bool
deriving Repr

/-- A fragment inside a type. -/
structure FragmentSite where
  around : Option TypeDef
  on : Option String
  directives : List Directive
deriving Repr

/-- A place of an operation: a field, a fragment, or selections that stand together. -/
inductive Site where
  | field (f : FieldSite)
  | fragment (f : FragmentSite)
  | group (selections : List Selection)
deriving Repr

namespace Schema

variable (s : Schema)

/-- The type of a field of a type. -/
def fieldType? (parent : Option TypeDef) (name : String) : Option TypeDef := do
  let d ← parent
  let f ← d.field? name
  s.type? f.type.base

/-- The type inside a fragment. -/
def innerType? (around : Option TypeDef) : Option String → Option TypeDef
  | none => around
  | some name => s.type? name

mutual

/-- The sites of selections inside a type. -/
def sitesAll (around : Option TypeDef) : List Selection → List Site
  | [] => []
  | x :: xs => sites around x ++ sitesAll around xs

/-- The sites of a selection inside a type. -/
def sites (around : Option TypeDef) : Selection → List Site
  | .field _ name args ds xs =>
    if name = Selection.typenameField then []
    else
      .field ⟨around, name, args, ds, xs.isEmpty⟩ :: .group xs ::
        sitesAll (s.fieldType? around name) xs
  | .inline on ds xs =>
    .fragment ⟨around, on, ds⟩ :: .group xs :: sitesAll (s.innerType? around on) xs
  | .spread _ ds => [.fragment ⟨around, none, ds⟩]

end

end Schema

/-- The name of the root type of an operation. -/
def OperationKind.root? : OperationKind → Option String
  | .query => some queryRoot
  | .mutation => some mutationRoot
  | .subscription => none

/-- The sites of an operation whose fragments are in place. -/
def Schema.operationSites (s : Schema) (kind : OperationKind) (ss : List Selection) : List Site :=
  .group ss :: s.sitesAll (kind.root?.bind s.type?) ss

/-! ### Directives and arguments -/

/-- The directives of a site. -/
def Site.directives : Site → List Directive
  | .field f => f.directives
  | .fragment f => f.directives
  | .group _ => []

/-- The arguments that stand at one place, and those that are declared for it. -/
structure ArgumentSite where
  declared : Option (List InputField)
  given : List (String × Literal)
deriving Repr

namespace Directive

/-- The arguments of a directive. -/
def argumentSite (d : Directive) : ArgumentSite :=
  ⟨(DirectiveDef.get? d.name).map DirectiveDef.arguments, d.arguments⟩

end Directive

/-- The arguments of a field. -/
def FieldSite.argumentSite (f : FieldSite) : ArgumentSite :=
  ⟨(f.parent.bind fun d => d.field? f.name).map FieldDef.arguments, f.arguments⟩

namespace Site

/-- All arguments at a site. -/
def argumentSites (x : Site) : List ArgumentSite :=
  let own := match x with
    | .field f => [f.argumentSite]
    | _ => []
  own ++ x.directives.map Directive.argumentSite

/-- The variables at a site. -/
def variableNames (x : Site) : List String :=
  x.argumentSites.flatMap fun a => a.given.flatMap fun g => g.2.variableNames

end Site

namespace ArgumentSite

/-- The given arguments that are declared, with their types. -/
def typed (a : ArgumentSite) : List (TypeRef × Literal) :=
  match a.declared with
  | none => []
  | some ds => a.given.filterMap fun g =>
    (ds.find? fun f => f.name = g.1).map fun f => (f.type, g.2)

end ArgumentSite

end EntityGraph
