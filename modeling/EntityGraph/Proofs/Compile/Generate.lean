import EntityGraph.Compile.Argument
import Mathlib.Data.List.Nodup

/-!
One step for all types with members. The type of an entity and the type of a shape are generated
alike: the name is checked and reserved, the members become fields one after the other, and the
type is finished. An entity has the identifier in front of its members, and a shape computes
nothing.
-/

namespace EntityGraph

namespace Compile

variable {α β γ : Type}

/-! ### Laws of steps -/

theorem bind_assoc (c : Compile α) (f : α → Compile β) (g : β → Compile γ) :
    c >>= f >>= g = c >>= fun a => f a >>= g := by
  funext r
  rw [bind_apply, bind_apply, bind_apply]
  cases c r with
  | mk a s => cases a <;> rfl

/-- Two steps succeed where both of them do. -/
theorem exists_ok_of_bind {c : Compile α} {f : α → Compile β} {b : β} {r s : TypeRegistry}
    (h : (c >>= f) r = (.ok b, s)) : ∃ a t, c r = (.ok a, t) ∧ f a t = (.ok b, s) := by
  rcases hc : c r with ⟨e | a, t⟩
  · rw [bind_error hc] at h
    cases h
  · rw [bind_ok hc] at h
    exact ⟨a, t, rfl, h⟩

theorem checkName_of_valid {name : String} (h : Name.Valid name = true) (r : TypeRegistry) :
    checkName name r = (.ok (), r) := by
  rw [checkName, if_pos h]
  rfl

theorem checkName_of_not_valid {name : String} (h : Name.Valid name = false) (r : TypeRegistry) :
    checkName name r = (.error (.refused (.invalidName name)), r) := by
  rw [checkName, if_neg (by simp [h])]
  rfl

theorem any_name_iff {name : α → String} {fields : List α} {f : α} :
    (fields.any fun g => decide (name g = name f)) = true ↔ name f ∈ fields.map name := by
  simp only [List.any_eq_true, decide_eq_true_eq, List.mem_map]

theorem addField_of_mem {typeName : String} {name : α → String} {fields : List α} {f : α}
    (h : name f ∈ fields.map name) (r : TypeRegistry) :
    addField typeName name fields f r = (.error (.repeatedField typeName (name f)), r) := by
  rw [addField, if_pos (any_name_iff.2 h)]
  rfl

theorem addField_of_notMem {typeName : String} {name : α → String} {fields : List α} {f : α}
    (h : name f ∉ fields.map name) (r : TypeRegistry) :
    addField typeName name fields f r = (.ok (fields ++ [f]), r) := by
  rw [addField, if_neg fun h' => h (any_name_iff.1 h')]
  rfl

/-- Fields are added if no name is repeated, and refused otherwise. -/
theorem addFields_cases {name : α → String} {before : List α} (hbefore : (before.map name).Nodup)
    (typeName : String) (fs : List α) (r : TypeRegistry) :
    (((before ++ fs).map name).Nodup ∧
        addFields typeName name before fs r = (.ok (before ++ fs), r)) ∨
      (¬ ((before ++ fs).map name).Nodup ∧
        ∃ f, addFields typeName name before fs r = (.error (.repeatedField typeName f), r)) := by
  induction fs generalizing before with
  | nil =>
    rw [List.append_nil]
    exact .inl ⟨hbefore, rfl⟩
  | cons f fs ih =>
    unfold addFields
    by_cases hf : name f ∈ before.map name
    · refine .inr ⟨fun hnodup => ?_, name f, bind_error (addField_of_mem hf r)⟩
      rw [List.map_append, List.map_cons] at hnodup
      exact List.disjoint_of_nodup_append hnodup hf List.mem_cons_self
    · have hnext : ((before ++ [f]).map name).Nodup := by
        rw [List.map_append]
        exact List.nodup_append_comm.1 (List.nodup_cons.2 ⟨hf, hbefore⟩)
      rw [bind_ok (addField_of_notMem hf r), List.append_cons]
      exact ih hnext

theorem addFields_eq_of_ok {name : α → String} {typeName : String} {before fs all : List α}
    {r s : TypeRegistry} (h : addFields typeName name before fs r = (.ok all, s)) :
    all = before ++ fs ∧ s = r := by
  induction fs generalizing before with
  | nil =>
    obtain ⟨hall, rfl⟩ := Prod.mk.inj h
    rw [List.append_nil]
    exact ⟨(Except.ok.inj hall).symm, rfl⟩
  | cons f fs ih =>
    unfold addFields at h
    by_cases hf : name f ∈ before.map name
    · rw [bind_error (addField_of_mem hf r)] at h
      cases h
    · rw [bind_ok (addField_of_notMem hf r)] at h
      rw [List.append_cons]
      exact ih h

/-! ### Reserving -/

theorem unlessReserved_free {name : String} {r : TypeRegistry}
    (h : Fields.get? r.fingerprints name = none) (s : Signature) (build : Compile Unit) :
    unlessReserved name s build r = build (r.enter name s.fingerprint) := by
  rw [unlessReserved, bind_apply, reserve, TypeRegistry.reserve, h]

theorem unlessReserved_same {name : String} {r : TypeRegistry} {s : Signature}
    (h : Fields.get? r.fingerprints name = some s.fingerprint) (build : Compile Unit) :
    unlessReserved name s build r = (.ok (), r) := by
  rw [unlessReserved, bind_apply, reserve, TypeRegistry.reserve, h]
  simp

theorem unlessReserved_other {name f : String} {r : TypeRegistry} {s : Signature}
    (h : Fields.get? r.fingerprints name = some f) (hf : f ≠ s.fingerprint)
    (build : Compile Unit) :
    unlessReserved name s build r = (.error (.refused (.conflict name)), r) := by
  rw [unlessReserved, bind_apply, reserve, TypeRegistry.reserve, h]
  simp [hf]

/-! ### Members -/

variable (c : Catalog) (u : TypeUse) (enter : Entity → Compile String)

/-- The fields of members, added to those before them. -/
def memberFields (name : String) (before : List FieldDef) :
    List (String × ProjectedField) → Compile (List FieldDef)
  | [] => return before
  | m :: ms => do
    checkName m.1
    let type ← propertyType c u enter (name ++ m.1) m.2.type
    let before ← addField name FieldDef.name before (u.field m.1 type m.2.computation)
    memberFields name before ms

/-- The members of a shape. -/
def shapeMembers (fs : List (String × PropertyType)) : List (String × ProjectedField) :=
  fs.map fun f => (f.1, .plain f.2)

/-- The members of an entity: every field but the identifier. -/
def entityMembers (fs : List (String × ProjectedField)) : List (String × ProjectedField) :=
  fs.filter fun f => f.1 ≠ idField

theorem field_plain (k : String) (t : TypeRef) : u.field k t none = .stored k t := by
  unfold TypeUse.field
  split <;> first | rfl | contradiction

theorem shapeFields_eq (name : String) (before : List FieldDef)
    (fs : List (String × PropertyType)) :
    shapeFields c u enter name before fs =
      memberFields c u enter name before (shapeMembers fs) := by
  unfold shapeMembers
  induction fs generalizing before with
  | nil => simp [shapeFields, memberFields]
  | cons f fs ih =>
    simp only [shapeFields, memberFields, List.map_cons, ProjectedField.plain, ih, field_plain]

theorem entityFields_eq (name : String) (before : List FieldDef)
    (fs : List (String × ProjectedField)) :
    entityFields c u enter name before fs =
      memberFields c u enter name before (entityMembers fs) := by
  unfold entityMembers
  induction fs generalizing before with
  | nil => simp [entityFields, memberFields]
  | cons f fs ih =>
    by_cases hk : f.1 = idField
    · simp [entityFields, hk, ih]
    · simp [entityFields, hk, ih, memberFields]

/-! ### Generating a type -/

/-- Generates a type from its members, unless its name is reserved. -/
def generate (name : String) (s : Signature) (description : Option String)
    (before : List FieldDef) (ms : List (String × ProjectedField)) : Compile Unit := do
  checkName name
  unlessReserved name s do
    let fields ← memberFields c u enter name before ms
    change (u.finish name description fields)

theorem propertyType_scalar (name : String) (k : ScalarKind) :
    propertyType c u enter name (.scalar k) = pure (.named k.typeName) := by
  rw [propertyType]

theorem propertyType_array (name : String) (t : PropertyType) :
    propertyType c u enter name (.array t) =
      propertyType c u enter name t >>= fun t => pure (.list t) := by
  rw [propertyType]

theorem propertyType_unknown {a : String} (h : c.get? a = none) (name : String) :
    propertyType c u enter name (.reference a) = refuse (.unknownReference name a) := by
  rw [propertyType, referenceType, h]

theorem propertyType_reference {a : String} {e : Entity} (h : c.get? a = some e) (name : String) :
    propertyType c u enter name (.reference a) = enter e >>= fun n => pure (.named n) := by
  rw [propertyType, referenceType, h]

theorem propertyType_empty (name : String) :
    propertyType c u enter name (.shape []) = refuse (.emptyShape name) := by
  simp only [propertyType, List.isEmpty_nil, if_true]
  rfl

theorem propertyType_shape {fs : List (String × PropertyType)} (h : fs ≠ []) (name : String) :
    propertyType c u enter name (.shape fs) =
      generate c u enter name (u.shapeSignature fs) none [] (shapeMembers fs) >>= fun _ =>
        pure (.named name) := by
  have hfs : fs.isEmpty = false := by simpa using h
  simp only [propertyType, hfs, generate, shapeFields_eq, bind_assoc]
  rfl

end Compile

/-- The type of an entity is generated from the fields of its use. -/
theorem CompileContext.enterEntity_eq (x : CompileContext) (u : TypeUse)
    (enter : Entity → Compile String) (e : Entity) :
    x.enterEntity u enter e =
      Compile.generate x.catalog u enter (u.typeName e.aliasName)
          (u.entitySignature e.aliasName (x.fieldsOf u e)) (some (u.description e)) [idFieldDef]
          (Compile.entityMembers (x.fieldsOf u e)) >>= fun _ =>
        pure (u.typeName e.aliasName) := by
  simp only [enterEntity, Compile.generate, Compile.entityFields_eq, Compile.bind_assoc]

end EntityGraph
