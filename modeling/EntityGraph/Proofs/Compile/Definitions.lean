import EntityGraph.Proofs.Compile.Session

/-!
The definitions that a session leaves behind. The type stored under a name may have been built for
another demand than the one that asks for it. As a name is reserved for one signature, and the
signature tells the alias, the use and the members, the stored type is nevertheless the one that
each of these demands stands for.
-/

namespace EntityGraph

/-! ### Demands of one signature -/

namespace Demand

variable {x : CompileContext} {q : Demand} {b : Blueprint} {a : String}

/-- A demand with the signature of an entity is one for an entity of its alias. -/
theorem eq_entity {u : TypeUse} {fs : List (String × ProjectedField)}
    (h : q.blueprint? x = some b) (hs : b.signature = u.entitySignature a fs) :
    ∃ e, q = .entity u e ∧ e.aliasName = a := by
  cases builds_of_blueprint h with
  | entity u' e =>
    cases u with
    | output =>
      cases u' with
      | input => exact nomatch hs
      | output =>
        obtain ⟨ha, rfl, -⟩ := Signature.entityObject.inj hs
        exact ⟨e, rfl, ha⟩
    | input =>
      cases u' with
      | output => exact nomatch hs
      | input => exact ⟨e, rfl, (Signature.entityInput.inj hs).1⟩
  | shape u' => cases u <;> cases u' <;> exact nomatch hs
  | filter | sort => cases u <;> exact nomatch hs

/-- A demand with the signature of a shape is one for that shape. -/
theorem eq_shape {u : TypeUse} {fs : List (String × PropertyType)} (h : q.blueprint? x = some b)
    (hs : b.signature = u.shapeSignature fs) : q = .property u b.name (.shape fs) := by
  cases builds_of_blueprint h with
  | entity u' => cases u <;> cases u' <;> exact nomatch hs
  | shape u' name fs' =>
    cases u with
    | output =>
      cases u' with
      | input => exact nomatch hs
      | output =>
        obtain ⟨rfl, rfl⟩ := Signature.shapeObject.inj hs
        rfl
    | input =>
      cases u' with
      | output => exact nomatch hs
      | input =>
        obtain rfl := Signature.shapeInput.inj hs
        rfl
  | filter | sort => cases u <;> exact nomatch hs

end Demand

/-! ### The stored definitions -/

/-- What the input of an entity is to look like: the identifier, then one field for each other
persisted property. -/
def Entity.inputFields (e : Entity) : List InputField :=
  .plain "_id" (.named "ID") :: (e.propertyTypes.filter fun f => f.1 ≠ "_id").map fun f =>
    .plain f.1 (TypeUse.input.refTo (e.aliasName ++ "Input" ++ f.1) f.2)

/-- The object that is built for an entity. -/
def CompileContext.objectType (x : CompileContext) (o : OutputOptions) (e : Entity) :
    ObjectType :=
  ⟨o.typeName e.aliasName, some e.label,
    idFieldDef :: (TypeUse.output o).fieldDefs (o.typeName e.aliasName)
      (Compile.entityMembers (x.fieldsOf (.output o) e))⟩

section Session

variable {x : CompileContext} {qs : List Demand}

end Session

end EntityGraph
