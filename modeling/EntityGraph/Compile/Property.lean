import EntityGraph.Compile.Basic

/-!
The types of properties. Scalars are named scalars, arrays are lists, a reference names the type
of the entity it refers to, and a shape is a generated type of its own: its name is the name of
the enclosing type followed by the key of the property. The same rules give output types and
input types.
-/

namespace EntityGraph

/-- The scalar of a kind. -/
def ScalarKind.typeName : ScalarKind → String
  | .string => stringScalar
  | .number => floatScalar
  | .boolean => booleanScalar
  | .date => dateTimeScalar

/-- The name of the input type of an entity. -/
def inputTypeName (aliasName : String) : String := aliasName ++ "Input"

/-- What a generated type is for: answers, under options, or arguments. -/
inductive TypeUse where
  | output (options : OutputOptions)
  | input
deriving DecidableEq, Repr

namespace TypeUse

/-- The name of the type of an entity. -/
def typeName : TypeUse → String → String
  | .output o, aliasName => o.typeName aliasName
  | .input, aliasName => inputTypeName aliasName

/-- The description of the type of an entity. -/
def description : TypeUse → Entity → String
  | .output _, e => e.label
  | .input, e => "Input for " ++ e.label

/-- The signature of the type of a shape. -/
def shapeSignature : TypeUse → List (String × PropertyType) → Signature
  | .output o, fs => .shapeObject o fs
  | .input, fs => .shapeInput fs

/-- The signature of the type of an entity. -/
def entitySignature : TypeUse → String → List (String × ProjectedField) → Signature
  | .output o, aliasName, fs => .entityObject aliasName o (fs.map fun f => (f.1, f.2.type, f.2.isComputed))
  | .input, aliasName, fs => .entityInput aliasName (fs.map fun f => (f.1, f.2.type))

/-- The field of a type. It is computed where computations are attached and there is one. -/
def field (u : TypeUse) (name : String) (t : TypeRef) (computation : Option Computation) :
    FieldDef :=
  match u, computation with
  | .output o, some c => if o.attachComputations then .computed name t c else .stored name t
  | _, _ => .stored name t

/-- Stores a finished type. -/
def finish (u : TypeUse) (name : String) (description : Option String) (fields : List FieldDef)
    (r : TypeRegistry) : TypeRegistry :=
  match u with
  | .output _ => r.finishObject name ⟨name, description, fields⟩
  | .input => r.finishInput name ⟨name, description, fields.map fun f => .plain f.name f.type⟩

end TypeUse

namespace Compile

variable (c : Catalog) (u : TypeUse) (enter : Entity → Compile String)

/-- The type of a reference met under a name. -/
def referenceType (name target : String) : Compile TypeRef :=
  match c.get? target with
  | none => refuse (.unknownReference name target)
  | some e => do return .named (← enter e)

mutual

/-- The type of a property met under a name. -/
def propertyType (name : String) : PropertyType → Compile TypeRef
  | .scalar k => return .named k.typeName
  | .array t => do return .list (← propertyType name t)
  | .reference target => referenceType c enter name target
  | .shape fs => do
    if fs.isEmpty then refuse (.emptyShape name)
    checkName name
    unlessReserved name (u.shapeSignature fs) do
      let fields ← shapeFields name [] fs
      change (u.finish name none fields)
    return .named name

/-- The fields of the type of a shape, added to those before them. -/
def shapeFields (name : String) (before : List FieldDef) :
    List (String × PropertyType) → Compile (List FieldDef)
  | [] => return before
  | (key, t) :: fs => do
    checkName key
    let type ← propertyType (name ++ key) t
    let before ← addField name FieldDef.name before (.stored key type)
    shapeFields name before fs

end

/-- The fields of the type of an entity, added to those before them. The identifier has its field
already. -/
def entityFields (name : String) (before : List FieldDef) :
    List (String × ProjectedField) → Compile (List FieldDef)
  | [] => return before
  | (key, f) :: fs =>
    if key = idField then entityFields name before fs
    else do
      checkName key
      let type ← propertyType c u enter (name ++ key) f.type
      let before ← addField name FieldDef.name before (u.field key type f.computation)
      entityFields name before fs

end Compile

end EntityGraph
