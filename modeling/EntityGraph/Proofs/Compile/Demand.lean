import EntityGraph.Proofs.Compile.Generate
import Mathlib.Logic.Relation

/-!
Demands to a compilation: the type of an entity, the type of a property under a name, the filter
input and the sort input of an entity. What a demand leads to, and what it builds, are said here
without a registry: a demand that meets its type already there, or under construction, leads to
the same demands as the one that builds it.
-/

namespace EntityGraph

/-- What a compilation may be asked for. -/
inductive Demand where
  | entity (u : TypeUse) (e : Entity)
  | property (u : TypeUse) (name : String) (t : PropertyType)
  | filter (e : Entity)
  | sort (e : Entity)

namespace TypeUse

/-- The reference to the type of a property met under a name. -/
def refTo (u : TypeUse) (name : String) : PropertyType → TypeRef
  | .scalar .string => .named "String"
  | .scalar .number => .named "Float"
  | .scalar .boolean => .named "Boolean"
  | .scalar .date => .named "DateTime"
  | .array t => .list (u.refTo name t)
  | .shape _ => .named name
  | .reference a => .named (u.typeName a)

theorem refTo_scalar (u : TypeUse) (name : String) (k : ScalarKind) :
    u.refTo name (.scalar k) = .named k.typeName := by cases k <;> rfl

/-- Under its arrays, the type of a property is published as the scalar of its kind. -/
theorem base_refTo_of_scalarLeaf {u : TypeUse} {name : String} {t : PropertyType}
    {k : ScalarKind} (h : t.scalarLeaf? = some k) : (u.refTo name t).base = k.typeName := by
  induction t using PropertyType.induct with
  | scalar k' =>
    obtain rfl := Option.some.inj h
    rw [u.refTo_scalar]
    rfl
  | array t ih => exact ih h
  | shape | reference => exact nomatch h

/-- The fields of members under the name of their type. -/
def fieldDefs (u : TypeUse) (name : String) (ms : List (String × ProjectedField)) :
    List FieldDef :=
  ms.map fun m => u.field m.1 (u.refTo (name ++ m.1) m.2.type) m.2.computation

/-- The definition of a type by its fields. -/
def typeDef (u : TypeUse) (name : String) (description : Option String) (fields : List FieldDef) :
    TypeDef :=
  match u with
  | .output _ => .object ⟨name, description, fields⟩
  | .input => .input ⟨name, description, fields.map fun f => .plain f.name f.type⟩

@[simp] theorem field_name (u : TypeUse) (k : String) (t : TypeRef) (c : Option Computation) :
    (u.field k t c).name = k := by
  unfold field
  split <;> try rfl
  split <;> rfl

@[simp] theorem field_arguments (u : TypeUse) (k : String) (t : TypeRef)
    (c : Option Computation) : (u.field k t c).arguments = [] := by
  unfold field
  split <;> try rfl
  split <;> rfl

end TypeUse

/-! ### Answering demands -/

namespace CompileContext

variable (x : CompileContext)

/-- Answers a demand with a reference to the type. -/
def answer : Demand → Compile TypeRef
  | .entity u e => do return .named (← x.entityType u e)
  | .property u name t => x.propertyType u name t
  | .filter e => do return .named (← Compile.filterInput e)
  | .sort e => do return .named (← Compile.sortInput e)

/-- The answers to demands made one after the other, whether those before succeed or not, and
the registry that they leave behind. -/
def session : List Demand → TypeRegistry → List (Except CompileFailure TypeRef) × TypeRegistry
  | [], r => ([], r)
  | q :: qs, r =>
    let (a, s) := x.answer q r
    let (as, t) := session qs s
    (a :: as, t)

theorem session_cons (q : Demand) (qs : List Demand) (r : TypeRegistry) :
    x.session (q :: qs) r =
      ((x.answer q r).1 :: (x.session qs (x.answer q r).2).1,
        (x.session qs (x.answer q r).2).2) := rfl

end CompileContext

/-! ### What a demand leads to -/

/-- The demands that a demand makes when its type is built. -/
inductive Leads (x : CompileContext) : Demand → Demand → Prop
  | field {u : TypeUse} {e : Entity} {k : String} {f : ProjectedField} :
      (k, f) ∈ x.fieldsOf u e → k ≠ idField →
      Leads x (.entity u e) (.property u (u.typeName e.aliasName ++ k) f.type)
  | member {u : TypeUse} {name k : String} {fs : List (String × PropertyType)}
      {t : PropertyType} :
      (k, t) ∈ fs → Leads x (.property u name (.shape fs)) (.property u (name ++ k) t)
  | item {u : TypeUse} {name : String} {t : PropertyType} :
      Leads x (.property u name (.array t)) (.property u name t)
  | target {u : TypeUse} {name a : String} {e : Entity} :
      x.catalog.get? a = some e → Leads x (.property u name (.reference a)) (.entity u e)

/-- **The demand is met**: it is one of the given demands or lies behind one of them. -/
def Met (x : CompileContext) (qs : List Demand) (q : Demand) : Prop :=
  ∃ p ∈ qs, Relation.ReflTransGen (Leads x) p q

theorem Met.of_mem {x : CompileContext} {qs : List Demand} {q : Demand} (h : q ∈ qs) :
    Met x qs q := ⟨q, h, .refl⟩

theorem Met.leads {x : CompileContext} {qs : List Demand} {q q' : Demand} (h : Met x qs q)
    (hl : Leads x q q') : Met x qs q' :=
  let ⟨p, hp, hr⟩ := h
  ⟨p, hp, hr.tail hl⟩

/-! ### What a demand builds -/

/-- A type to be built: its name, the signature it is reserved for, and its definition. -/
structure Blueprint where
  name : String
  signature : Signature
  definition : TypeDef

/-- The type of an entity: the identifier, then the other fields. -/
abbrev CompileContext.entityBlueprint (x : CompileContext) (u : TypeUse) (e : Entity) :
    Blueprint :=
  let name := u.typeName e.aliasName
  ⟨name, u.entitySignature e.aliasName (x.fieldsOf u e),
    u.typeDef name (some (u.description e))
      (idFieldDef :: u.fieldDefs name (Compile.entityMembers (x.fieldsOf u e)))⟩

/-- The type of a shape under a name. -/
abbrev TypeUse.shapeBlueprint (u : TypeUse) (name : String)
    (fs : List (String × PropertyType)) : Blueprint :=
  ⟨name, u.shapeSignature fs, u.typeDef name none (u.fieldDefs name (Compile.shapeMembers fs))⟩

/-- The filter input of an entity. -/
abbrev Entity.filterBlueprint (e : Entity) : Blueprint :=
  let name := e.filterInputName
  ⟨name, .filterInput e.filterFields,
    .input ⟨name, some ("Filter for " ++ e.label ++ " records"),
      e.filterFields.map (fun f => .plain f.1 (.named f.2)) ++ Compile.joinedFilters name⟩⟩

/-- The sort input of an entity. -/
abbrev Entity.sortBlueprint (e : Entity) : Blueprint :=
  ⟨e.sortInputName, .sortInput e.sortFields,
    .input ⟨e.sortInputName, some "Sort order; earlier keys take precedence",
      e.sortFields.map fun f => .plain f (.named sortDirectionEnum)⟩⟩

namespace Demand

variable (x : CompileContext)

/-- The type that a demand builds. A demand for a scalar, an array or a reference builds none
of its own. -/
def blueprint? : Demand → Option Blueprint
  | .entity u e => some (x.entityBlueprint u e)
  | .property u name (.shape fs) => some (u.shapeBlueprint name fs)
  | .property _ _ _ => none
  | .filter e => some e.filterBlueprint
  | .sort e => some e.sortBlueprint

/-- The reference that a demand is answered with. -/
def ref : Demand → TypeRef
  | .entity u e => .named (u.typeName e.aliasName)
  | .property u name t => u.refTo name t
  | .filter e => .named e.filterInputName
  | .sort e => .named e.sortInputName

/-- The demands that build a type of their own, with what they build. -/
inductive Builds : Demand → Blueprint → Prop
  | entity (u : TypeUse) (e : Entity) : Builds (.entity u e) (x.entityBlueprint u e)
  | shape (u : TypeUse) (name : String) (fs : List (String × PropertyType)) :
      Builds (.property u name (.shape fs)) (u.shapeBlueprint name fs)
  | filter (e : Entity) : Builds (.filter e) e.filterBlueprint
  | sort (e : Entity) : Builds (.sort e) e.sortBlueprint

theorem builds_of_blueprint {x : CompileContext} {q : Demand} {b : Blueprint}
    (h : q.blueprint? x = some b) : Builds x q b := by
  cases q with
  | property u name t =>
    cases t with
    | shape fs =>
      obtain rfl := Option.some.inj h
      exact .shape u name fs
    | scalar | array | reference => exact absurd h (by simp [blueprint?])
  | entity u e =>
    obtain rfl := Option.some.inj h
    exact .entity u e
  | filter e =>
    obtain rfl := Option.some.inj h
    exact .filter e
  | sort e =>
    obtain rfl := Option.some.inj h
    exact .sort e

end Demand

/-! ### A catalog with references both ways -/

/-- Folders stand in folders and hold files. -/
def folderEntity : Entity :=
  { Entity.bare "Folder" with
    properties :=
      [("parent", .plain (.reference "Folder")), ("files", .plain (.array (.reference "File")))] }

/-- Files stand on a shelf of a folder. -/
def fileEntity : Entity :=
  { Entity.bare "File" with
    properties :=
      [("place", .plain (.shape [("shelf", .scalar .number), ("folder", .reference "Folder")]))] }

/-- Folders and files, where a folder shows how deep it stands. -/
def archiveContext : CompileContext where
  catalog := ⟨[folderEntity, fileEntity]⟩
  projections := ProjectionSet.empty.register
    ⟨"Folder", fun e => e.persistedFields ++ [("depth", ⟨.scalar .number, some (.key "depth")⟩)]⟩

/-! ### An entity with two types of one name -/

/-- Parts, described by a shape whose key is the ending of persisted types. -/
def partEntity : Entity :=
  { Entity.bare "part" with
    properties := [("Entity", .plain (.shape [("size", .scalar .number)]))] }

end EntityGraph
