import EntityGraph.Fields

/-!
Property types: four scalar kinds, inline shapes with ordered fields of their own, arrays, and
references to other entities by alias.
-/

namespace EntityGraph

/-- The kinds of scalars. A date is kept as the text it was written with. -/
inductive ScalarKind where
  | string
  | number
  | boolean
  | date
deriving DecidableEq, Repr

/-- The tag of a scalar kind in a descriptor. -/
def ScalarKind.tag : ScalarKind → String
  | .string => "String"
  | .number => "Number"
  | .boolean => "Boolean"
  | .date => "Date"

/-- The type of a property. -/
inductive PropertyType where
  | scalar (kind : ScalarKind)
  | shape (fields : List (String × PropertyType))
  | array (item : PropertyType)
  | reference (target : String)
deriving Repr, Inhabited

namespace PropertyType

/-- The tag of a type in a descriptor. -/
def tag : PropertyType → String
  | .scalar k => k.tag
  | .shape _ => "Shape"
  | .array _ => "Array"
  | .reference _ => "SchemaType"

/-- The kind of a scalar. -/
def scalarKind? : PropertyType → Option ScalarKind
  | .scalar k => some k
  | _ => none

/-- The kind of the scalar under any number of arrays. -/
def scalarLeaf? : PropertyType → Option ScalarKind
  | .array t => scalarLeaf? t
  | t => t.scalarKind?

mutual

/-- The aliases a type refers to, in the order they are met. -/
def references : PropertyType → List String
  | .scalar _ => []
  | .shape fs => fieldReferences fs
  | .array t => references t
  | .reference a => [a]

def fieldReferences : List (String × PropertyType) → List String
  | [] => []
  | (_, t) :: fs => references t ++ fieldReferences fs

end

mutual

/-- No shape inside the type has a key twice. -/
def Distinct : PropertyType → Prop
  | .scalar _ => True
  | .shape fs => Fields.Distinct fs ∧ DistinctFields fs
  | .array t => Distinct t
  | .reference _ => True

def DistinctFields : List (String × PropertyType) → Prop
  | [] => True
  | (_, t) :: fs => Distinct t ∧ DistinctFields fs

end

/-! ### Induction -/

theorem sizeOf_lt_shape {fs : List (String × PropertyType)} {f : String × PropertyType}
    (hf : f ∈ fs) : sizeOf f.2 < sizeOf (shape fs) := by
  have hmem := List.sizeOf_lt_of_mem hf
  have hpair : sizeOf f = 1 + sizeOf f.1 + sizeOf f.2 := rfl
  rw [shape.sizeOf_spec]
  omega

/-- Induction on a type: a shape may use what holds of the types of its fields. -/
theorem induct {motive : PropertyType → Prop} (scalar : ∀ k, motive (.scalar k))
    (shape : ∀ fs, (∀ f ∈ fs, motive f.2) → motive (.shape fs))
    (array : ∀ t, motive t → motive (.array t)) (reference : ∀ a, motive (.reference a)) :
    ∀ t, motive t
  | .scalar k => scalar k
  | .shape fs => shape fs fun f _hf => induct scalar shape array reference f.2
  | .array t => array t (induct scalar shape array reference t)
  | .reference a => reference a
termination_by t => sizeOf t
decreasing_by
  · exact sizeOf_lt_shape _hf
  · simp

/-! ### Scalars under arrays -/

@[simp] theorem scalarLeaf?_scalar (k : ScalarKind) : scalarLeaf? (.scalar k) = some k := rfl
@[simp] theorem scalarLeaf?_array (t : PropertyType) : scalarLeaf? (.array t) = t.scalarLeaf? := rfl
@[simp] theorem scalarLeaf?_shape (fs : List (String × PropertyType)) :
    scalarLeaf? (.shape fs) = none := rfl
@[simp] theorem scalarLeaf?_reference (a : String) : scalarLeaf? (.reference a) = none := rfl

end PropertyType

end EntityGraph
