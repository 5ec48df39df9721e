import EntityGraph.Execution.Response
import EntityGraph.Resolver.Description
import EntityGraph.Resolver.Mutation
import EntityGraph.Schema.Assembly

/-!
Hosts, and runs of a request on one. A run goes from state to state and gathers the errors it
meets.
-/

namespace EntityGraph

/-- What answers requests: a schema over a catalog, a repository for every alias, and a policy. -/
structure Host (σ : Type) where
  catalog : Catalog
  schema : Schema
  repositories : RepositoryRegistry σ
  check : PolicyCheck σ

namespace Host

variable {σ : Type} (h : Host σ)

/-- The fields of an entity that compare by instant. -/
def kindsOf (aliasName : String) : FieldKinds :=
  match h.catalog.get? aliasName with
  | some e => .ofEntity e
  | none => .none

/-- The resolver of a field, on the value it stands on and its arguments. -/
def resolve (context : Option RequestContext) (f : FieldDef) (parent : Value)
    (args : Argument.Arguments) : Resolve σ :=
  match f.source with
  | .stored key => Resolver.answer (Resolver.fieldOf? parent key)
  | .computed c => Resolver.compute h.repositories c parent
  | .query aliasName kind =>
    match h.repositories.get? aliasName with
    | some r => Resolver.query (h.kindsOf aliasName) h.schema.settings.maxListLimit r kind args
    | none => Resolver.answer none
  | .mutation aliasName kind =>
    match h.repositories.get? aliasName with
    | some r => Resolver.mutation h.check context aliasName r kind args
    | none => Resolver.answer none
  | .description => Resolver.answer (some h.schema.description)
  | .typeNamed => Resolver.typeNamed h.schema args
  | .typeAspect a => Resolver.typeAspect h.schema a parent
  | .detail key => Resolver.answer (Resolver.fieldOf? parent key)

/-- The types that the value of a field is made of. -/
def typesOf (f : FieldDef) : Schema :=
  if f.source.isDescriptive then Introspection.schema else h.schema

end Host

/-! ### Runs -/

/-- How far a run has come. -/
structure Progress (σ : Type) where
  state : σ
  errors : List ResponseError

/-- A step of a run. -/
abbrev Run (σ α : Type) : Type := StateM (Progress σ) α

namespace Run

variable {σ α : Type}

/-- Notes an error. -/
def note (e : ResponseError) : Run σ Unit := fun p => ((), { p with errors := p.errors ++ [e] })

/-- Runs a step on the state. -/
def onState (f : σ → α × σ) : Run σ α := fun p =>
  let (a, s) := f p.state
  (a, { p with state := s })

end Run

end EntityGraph
