import EntityGraph.Proofs.Compile.Demand

/-!
What a signature stands for. Under a name it fixes the outline of the type that is built for it:
object or input, and the fields in order, each with its type and whether its value is computed.
It also fixes the demands that the type leads to. So two demands for one signature under one name
build types of one outline and lead to the same demands.
-/

namespace EntityGraph

/-- A field as a caller sees it: its name, its type, and whether its value is computed. -/
abbrev FieldOutline := String × TypeRef × Bool

def FieldDef.outline (f : FieldDef) : FieldOutline := (f.name, f.type, f.isComputed)

def InputField.outline (f : InputField) : FieldOutline := (f.name, f.type, false)

def ObjectType.outline (o : ObjectType) : List FieldOutline := o.fields.map FieldDef.outline

def InputType.outline (i : InputType) : List FieldOutline := i.fields.map InputField.outline

namespace TypeDef

/-- The fields of a definition. -/
def outline : TypeDef → List FieldOutline
  | .object o => o.outline
  | .input i => i.outline
  | .scalar .. | .enum .. => []

/-- The definition is of the kind of a signature. -/
def Generated (d : TypeDef) (isObject : Bool) : Prop :=
  match d with
  | .object _ => isObject = true
  | .input _ => isObject = false
  | .scalar .. | .enum .. => False

theorem Generated.kind_eq {d : TypeDef} {k k' : Bool} (h : d.Generated k) (h' : d.Generated k') :
    k = k' := by
  cases d with
  | object | input => exact Eq.trans h (Eq.symm h')
  | scalar | enum => exact absurd h (by simp [Generated])

end TypeDef

namespace TypeUse

/-- Values are computed where a use attaches computations. -/
def computes : TypeUse → Bool
  | .output o => o.attachComputations
  | .input => false

/-- The outline of members under the name of their type. -/
def outlineOf (u : TypeUse) (name : String) (ms : List (String × PropertyType × Bool)) :
    List FieldOutline :=
  ms.map fun m => (m.1, u.refTo (name ++ m.1) m.2.1, u.computes && m.2.2)

theorem outline_field (u : TypeUse) (k : String) (t : TypeRef) (c : Option Computation) :
    (u.field k t c).outline = (k, t, u.computes && c.isSome) := by
  cases u with
  | input => rfl
  | output o =>
    cases c with
    | none => simp [field, FieldDef.outline, FieldDef.stored, FieldDef.isComputed]
    | some c =>
      cases h : o.attachComputations <;>
        simp [field, h, computes, FieldDef.outline, FieldDef.stored, FieldDef.computed,
          FieldDef.isComputed]

theorem outline_fieldDefs (u : TypeUse) (name : String) (ms : List (String × ProjectedField)) :
    (u.fieldDefs name ms).map FieldDef.outline =
      u.outlineOf name (ms.map fun m => (m.1, m.2.type, m.2.isComputed)) := by
  simp [fieldDefs, outlineOf, outline_field, ProjectedField.isComputed, Function.comp_def]

/-- The kind of the definitions of a use. -/
def isOutput : TypeUse → Bool
  | .output _ => true
  | .input => false

theorem outline_typeDef (u : TypeUse) (name : String) (d : Option String)
    {before : List FieldDef} (hbefore : ∀ f ∈ before, f.isComputed = false)
    (ms : List (String × ProjectedField)) :
    (u.typeDef name d (before ++ u.fieldDefs name ms)).outline =
      before.map FieldDef.outline ++
        u.outlineOf name (ms.map fun m => (m.1, m.2.type, m.2.isComputed)) := by
  rw [← outline_fieldDefs, ← List.map_append]
  cases u with
  | output o => rfl
  | input =>
    simp only [typeDef, TypeDef.outline, InputType.outline, List.map_map]
    refine List.map_congr_left fun f hf => ?_
    have hf' : f.isComputed = false := by
      rcases List.mem_append.1 hf with hf | hf
      · exact hbefore f hf
      · obtain ⟨m, -, rfl⟩ := List.mem_map.1 hf
        rfl
    simp [FieldDef.outline, InputField.outline, InputField.plain, hf']

theorem generated_typeDef (u : TypeUse) (name : String) (d : Option String)
    (fields : List FieldDef) : (u.typeDef name d fields).Generated u.isOutput := by
  cases u <;> rfl

end TypeUse

/-! ### Signatures -/

namespace Signature

/-- The use of a type with members. -/
def use? : Signature → Option TypeUse
  | .entityObject _ o _ | .shapeObject o _ => some (.output o)
  | .entityInput .. | .shapeInput _ => some .input
  | .filterInput _ | .sortInput _ => none

/-- The signature is that of an object. -/
def isObject : Signature → Bool
  | .entityObject .. | .shapeObject .. => true
  | _ => false

/-- The signature is that of a shape. -/
def isShape : Signature → Bool
  | .shapeObject .. | .shapeInput _ => true
  | _ => false

/-- The members of a type, with whether their values may be computed. -/
def members : Signature → List (String × PropertyType × Bool)
  | .entityObject _ _ fs => fs.filter fun f => f.1 ≠ idField
  | .shapeObject _ fs | .shapeInput fs => fs.map fun f => (f.1, f.2, false)
  | .entityInput _ fs => (fs.filter fun f => f.1 ≠ idField).map fun f => (f.1, f.2, false)
  | .filterInput _ | .sortInput _ => []

/-- **The outline of the type that is built for a signature under a name.** -/
def outline (name : String) (s : Signature) : List FieldOutline :=
  match s with
  | .entityObject _ o _ =>
    (idField, .named "ID", false) :: (TypeUse.output o).outlineOf name s.members
  | .shapeObject o _ => (TypeUse.output o).outlineOf name s.members
  | .entityInput .. => (idField, .named "ID", false) :: TypeUse.input.outlineOf name s.members
  | .shapeInput _ => TypeUse.input.outlineOf name s.members
  | .filterInput fs => fs.map (fun f => (f.1, .named f.2, false)) ++
      [("AND", .nonNullList name, false), ("OR", .nonNullList name, false)]
  | .sortInput ks => ks.map fun k => (k, .named sortDirectionEnum, false)

/-- A field of a type with members is that of the identifier, or that of a member. -/
theorem mem_outline {s : Signature} {u : TypeUse} {name : String} {f : FieldOutline}
    (hu : s.use? = some u) (hf : f ∈ s.outline name) :
    f.2.1 = .named "ID" ∨ ∃ m ∈ s.members, f.2.1 = u.refTo (name ++ m.1) m.2.1 := by
  have hmember : ∀ ms, f ∈ u.outlineOf name ms →
      ∃ m ∈ ms, f.2.1 = u.refTo (name ++ m.1) m.2.1 := by
    intro ms hms
    obtain ⟨m, hm, rfl⟩ := List.mem_map.1 hms
    exact ⟨m, hm, rfl⟩
  cases s with
  | entityObject | entityInput =>
    obtain rfl := Option.some.inj hu
    rcases List.mem_cons.1 hf with rfl | hf
    · exact .inl rfl
    · exact .inr (hmember _ hf)
  | shapeObject | shapeInput =>
    obtain rfl := Option.some.inj hu
    exact .inr (hmember _ hf)
  | filterInput | sortInput => exact absurd hu (by simp [use?])

theorem isObject_of_use? {s : Signature} {u : TypeUse} (hu : s.use? = some u) :
    s.isObject = u.isOutput := by
  cases s with
  | entityObject | entityInput | shapeObject | shapeInput =>
    obtain rfl := Option.some.inj hu
    rfl
  | filterInput | sortInput => exact absurd hu (by simp [use?])

/-- The names that are checked when the type is built. -/
def checkedNames (name : String) (s : Signature) : List String :=
  match s.use? with
  | some _ => name :: s.members.map Prod.fst
  | none => []

/-- What the building of a type asks of a signature, its references apart. -/
structure Sound (s : Signature) (name : String) : Prop where
  valid : ∀ n ∈ s.checkedNames name, Name.Valid n = true
  distinct : ((s.outline name).map Prod.fst).Nodup
  inhabited : s.isShape = true → s.members ≠ []

end Signature

/-! ### Blueprints -/

namespace TypeUse

variable (u : TypeUse)

theorem members_entitySignature (a : String) (fs : List (String × ProjectedField)) :
    (u.entitySignature a fs).members = (Compile.entityMembers fs).map fun m =>
      (m.1, m.2.type, u.isOutput && m.2.isComputed) := by
  cases u <;>
    simp [entitySignature, Signature.members, Compile.entityMembers, List.filter_map,
      Function.comp_def, isOutput]

theorem members_shapeSignature (fs : List (String × PropertyType)) :
    (u.shapeSignature fs).members = (Compile.shapeMembers fs).map fun m =>
      (m.1, m.2.type, m.2.isComputed) := by
  cases u <;>
    simp [shapeSignature, Signature.members, Compile.shapeMembers, Function.comp_def,
      ProjectedField.plain, ProjectedField.isComputed]

@[simp] theorem use?_entitySignature (a : String) (fs : List (String × ProjectedField)) :
    (u.entitySignature a fs).use? = some u := by cases u <;> rfl

@[simp] theorem use?_shapeSignature (fs : List (String × PropertyType)) :
    (u.shapeSignature fs).use? = some u := by cases u <;> rfl

@[simp] theorem isObject_entitySignature (a : String) (fs : List (String × ProjectedField)) :
    (u.entitySignature a fs).isObject = u.isOutput := by cases u <;> rfl

@[simp] theorem isObject_shapeSignature (fs : List (String × PropertyType)) :
    (u.shapeSignature fs).isObject = u.isOutput := by cases u <;> rfl

/-- **The outline of the type of an entity**: the identifier, then its members in order. -/
theorem outline_entitySignature (name a : String) (fs : List (String × ProjectedField)) :
    (u.entitySignature a fs).outline name = (idField, .named "ID", false) ::
      u.outlineOf name ((Compile.entityMembers fs).map fun m =>
        (m.1, m.2.type, m.2.isComputed)) := by
  have hmembers := u.members_entitySignature a fs
  cases u with
  | output o =>
    simp only [entitySignature, Signature.outline] at hmembers ⊢
    rw [hmembers]
    simp [isOutput]
  | input =>
    simp only [entitySignature, Signature.outline] at hmembers ⊢
    rw [hmembers]
    simp [outlineOf, computes]

/-- **The outline of the type of a shape**: its members in order. -/
theorem outline_shapeSignature (name : String) (fs : List (String × PropertyType)) :
    (u.shapeSignature fs).outline name =
      u.outlineOf name ((Compile.shapeMembers fs).map fun m =>
        (m.1, m.2.type, m.2.isComputed)) := by
  rw [← u.members_shapeSignature]
  cases u <;> rfl

end TypeUse

namespace Demand

variable {x : CompileContext} {q q' : Demand} {b b' : Blueprint}

/-- A definition has the outline of its signature, and its kind. -/
theorem outline_of_blueprint (h : q.blueprint? x = some b) :
    b.definition.outline = b.signature.outline b.name ∧
      b.definition.Generated b.signature.isObject := by
  cases builds_of_blueprint h with
  | entity u e =>
    refine ⟨?_, by simpa using u.generated_typeDef _ _ _⟩
    rw [u.outline_entitySignature]
    exact u.outline_typeDef _ _ (List.forall_mem_singleton.2 rfl) _
  | shape u name fs =>
    refine ⟨?_, by simpa using u.generated_typeDef _ _ _⟩
    rw [u.outline_shapeSignature]
    exact u.outline_typeDef _ _ (List.forall_mem_nil _) _
  | filter e =>
    refine ⟨?_, rfl⟩
    simp [TypeDef.outline, InputType.outline, InputField.outline, InputField.plain,
      Signature.outline, Compile.joinedFilters, Argument.andKey, Argument.orKey]
  | sort e =>
    refine ⟨?_, rfl⟩
    simp [TypeDef.outline, InputType.outline, InputField.outline, InputField.plain,
      Signature.outline]

/-- What a demand leads to can be read off the signature and the name. -/
theorem leads_iff (h : q.blueprint? x = some b) :
    Leads x q q' ↔ ∃ u m, b.signature.use? = some u ∧ m ∈ b.signature.members ∧
      q' = .property u (b.name ++ m.1) m.2.1 := by
  cases builds_of_blueprint h with
  | entity u e =>
    simp only [u.use?_entitySignature, u.members_entitySignature]
    constructor
    · rintro (⟨hm, hk⟩ | _ | _ | _)
      refine ⟨u, _, rfl, List.mem_map_of_mem (List.mem_filter.2 ⟨hm, by simpa using hk⟩), rfl⟩
    · rintro ⟨u', m, hu, hm, rfl⟩
      obtain rfl := Option.some.inj hu
      obtain ⟨f, hf, rfl⟩ := List.mem_map.1 hm
      obtain ⟨hf, hk⟩ := List.mem_filter.1 hf
      exact .field hf (by simpa using hk)
  | shape u name fs =>
    simp only [u.use?_shapeSignature, u.members_shapeSignature]
    constructor
    · rintro (_ | hm | _ | _)
      exact ⟨u, _, rfl, List.mem_map_of_mem (List.mem_map_of_mem hm), rfl⟩
    · rintro ⟨u', m, hu, hm, rfl⟩
      obtain rfl := Option.some.inj hu
      obtain ⟨m, hmem, rfl⟩ := List.mem_map.1 hm
      obtain ⟨f, hf, rfl⟩ := List.mem_map.1 hmem
      exact .member hf
  | filter | sort =>
    -- neither side holds: these types have no members
    constructor
    · rintro (_ | _ | _ | _)
    · rintro ⟨u, m, hu, -⟩
      exact absurd hu (by simp [Signature.use?])

end Demand

end EntityGraph
