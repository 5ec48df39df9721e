import EntityGraph.Schema.Introspection
import EntityGraph.Schema.Root

/-!
Assembling a schema. The entities are compiled in the order of the catalog, each with all its
types and root fields before the next, and the first failure decides. Then the shared types, the
generated types, the roots and the built-in scalars are registered in this order, and the whole is
checked: no generated type is named after a built-in scalar, and all references fit.
-/

namespace EntityGraph

/-- The fields of the two roots. -/
structure RootFields where
  query : List FieldDef
  mutation : List FieldDef
deriving Repr

namespace CompileContext

variable (x : CompileContext)

/-- Compiles all types of an entity. -/
def entityTypes (e : Entity) : Compile EntityTypes := do
  let publicType ← x.entityType (.output .publicType) e
  let entityType ← x.entityType (.output .entityType) e
  let filter ← Compile.filterInput e
  let sort ← Compile.sortInput e
  let input ← x.entityType .input e
  return { publicType, entityType, filter, sort, input }

/-- Compiles an entity and adds its root fields. -/
def addEntity (bound : String → Bool) (roots : RootFields) (e : Entity) : Compile RootFields := do
  if !bound e.aliasName then Compile.refuse (.missingRepository e.aliasName)
  let t ← x.entityTypes e
  let query ← Compile.addFields queryRoot FieldDef.name roots.query (e.queryFields t)
  let mutation ← Compile.addFields mutationRoot FieldDef.name roots.mutation (e.mutationFields t)
  return { query, mutation }

/-- Compiles entities one after the other. -/
def addEntities (bound : String → Bool) (roots : RootFields) : List Entity → Compile RootFields
  | [] => return roots
  | e :: es => do
    let roots ← x.addEntity bound roots e
    addEntities bound roots es

/-- Compiles the catalog. -/
def addCatalog (bound : String → Bool) : Compile RootFields :=
  x.addEntities bound ⟨[], []⟩ x.catalog.entities

end CompileContext

namespace Schema

/-- All types of an interface, in the order they are registered. -/
def allTypes (r : TypeRegistry) (roots : RootFields) : List TypeDef :=
  sharedTypes ++ r.types ++
    [.object ⟨queryRoot, none, roots.query⟩, .object ⟨mutationRoot, none, roots.mutation⟩] ++
    builtInTypes

/-- No generated type is named after a built-in scalar. -/
def checkNames (r : TypeRegistry) : Except SchemaError Unit :=
  match r.types.find? fun t => builtInScalars.contains t.name with
  | some t => .error (.unfinished ("Type \"" ++ t.name ++ "\" already exists"))
  | none => .ok ()

/-- Registers the types of an interface. -/
def assemble (settings : Settings) (r : TypeRegistry) (roots : RootFields) : Schema :=
  ofTypes (allTypes r roots) settings

/-- The schema of a catalog whose bound aliases have repositories. -/
def build (x : CompileContext) (bound : String → Bool) (settings : Settings) :
    Except CompileFailure Schema :=
  if x.catalog.entities.isEmpty then .error (.refused .emptyCatalog)
  else
    match x.addCatalog bound .empty with
    | (.error e, _) => .error e
    | (.ok roots, r) =>
      let s := assemble settings r roots
      match checkNames r *> s.check with
      | .ok () => .ok s.published
      | .error e => .error (.refused e)

end Schema

end EntityGraph
