import EntityGraph.Proofs.Compile.Session
import EntityGraph.Proofs.Compile.Termination

/-!
How a demand meets the reservation of its name. A demand for a type of its own first passes some
checks, for which the registry does not count. Then a free name is taken, and the type is built
under it; a name that is reserved for the same signature is referred to, and one that is reserved
for another is a conflict. In the last two cases the registry stays as it is.
-/

namespace EntityGraph

open Compile

/-! ### Names in use -/

/-- A name that is in use is reserved for a signature. -/
theorem Consistent.exists_reserved {x : CompileContext} {P : Demand → Prop} {r : TypeRegistry}
    (h : Consistent x P r) {n : String} (hn : r.contains n = true) : ∃ s, r.Reserved n s := by
  obtain ⟨f, hf⟩ := Option.isSome_iff_exists.1 hn
  obtain ⟨q, b, -, -, -, rfl⟩ := h.reserved n f hf
  exact ⟨b.signature, hf⟩

/-! ### Checks -/

/-- A blueprint passes the checks that come before its name is reserved: a type with members has a
valid name, and a shape has members. -/
structure Blueprint.Admissible (b : Blueprint) : Prop where
  valid : b.signature.use?.isSome = true → Name.Valid b.name = true
  inhabited : b.signature.isShape = true → b.signature.members ≠ []

namespace Blueprint.Admissible

variable {u : TypeUse}

theorem entity (x : CompileContext) {e : Entity} (h : Name.Valid (u.typeName e.aliasName) = true) :
    (x.entityBlueprint u e).Admissible :=
  ⟨fun _ => h, by cases u <;> simp [TypeUse.entitySignature, Signature.isShape]⟩

theorem shape {name : String} {fs : List (String × PropertyType)} (h : Name.Valid name = true)
    (hfs : fs ≠ []) : (u.shapeBlueprint name fs).Admissible :=
  ⟨fun _ => h, fun _ => by simpa [u.members_shapeSignature, shapeMembers] using hfs⟩

theorem filter (e : Entity) : e.filterBlueprint.Admissible :=
  ⟨by simp [Signature.use?], by simp [Signature.isShape]⟩

theorem sort (e : Entity) : e.sortBlueprint.Admissible :=
  ⟨by simp [Signature.use?], by simp [Signature.isShape]⟩

end Blueprint.Admissible

namespace Compile

variable {β : Type} {c : Catalog} {u : TypeUse} {enter : Entity → Compile String} {name : String}

theorem generate_of_valid (h : Name.Valid name = true) (s : Signature) (d : Option String)
    (before : List FieldDef) (ms : List (String × ProjectedField)) :
    generate c u enter name s d before ms =
      unlessReserved name s (memberFields c u enter name before ms >>= fun fields =>
        change (u.finish name d fields)) := by
  funext r
  exact bind_ok (checkName_of_valid h r)

/-- What a step keeps is kept where the change after it is not reached. -/
theorem keeps_of_bind_change {body : Compile β} {g : β → TypeRegistry → TypeRegistry}
    {r s : TypeRegistry} {f : CompileFailure}
    (hkeeps : r.Within (body r).2 ∧ r.generating <:+ (body r).2.generating)
    (h : (body >>= fun a => change (g a)) r = (.error f, s)) :
    r.Within s ∧ r.generating <:+ s.generating := by
  rcases hbody : body r with ⟨e | a, t⟩
  · rw [bind_error hbody] at h
    obtain ⟨-, rfl⟩ := Prod.mk.inj h
    rwa [hbody] at hkeeps
  · rw [bind_ok hbody] at h
    cases h

/-- Adding fields leaves the registry alone. -/
theorem addFields_keeps (typeName : String) (key : β → String) (fs : List β) (r : TypeRegistry) :
    r.Within (addFields typeName key [] fs r).2 ∧
      r.generating <:+ (addFields typeName key [] fs r).2.generating := by
  have hnil : (([] : List β).map key).Nodup := .nil
  have hsame : (addFields typeName key [] fs r).2 = r := by
    rcases addFields_cases hnil typeName fs r with ⟨-, h⟩ | ⟨-, f, h⟩ <;> rw [h]
  rw [hsame]
  exact ⟨.refl r, List.suffix_rfl⟩

end Compile

namespace Demand

variable {x : CompileContext} {q : Demand} {b : Blueprint} {r s : TypeRegistry}

/-! ### Equations -/

theorem answer_entity (u : TypeUse) (e : Entity) :
    x.answer (.entity u e) =
      generate x.catalog u (x.entityType u) (u.typeName e.aliasName)
          (u.entitySignature e.aliasName (x.fieldsOf u e)) (some (u.description e))
          [CompileContext.idFieldDef] (entityMembers (x.fieldsOf u e)) >>= fun _ =>
        pure (.named (u.typeName e.aliasName)) := by
  rw [CompileContext.answer, x.entityType_eq, CompileContext.enterEntity_eq, Compile.bind_assoc]
  rfl

theorem answer_shape (u : TypeUse) (name : String) {fs : List (String × PropertyType)}
    (h : fs ≠ []) :
    x.answer (.property u name (.shape fs)) =
      generate x.catalog u (x.entityType u) name (u.shapeSignature fs) none [] (shapeMembers fs)
        >>= fun _ => pure (.named name) :=
  propertyType_shape x.catalog u (x.entityType u) h name

theorem answer_empty (u : TypeUse) (name : String) :
    x.answer (.property u name (.shape [])) = refuse (.emptyShape name) :=
  propertyType_empty x.catalog u (x.entityType u) name

theorem answer_array (u : TypeUse) (name : String) (t : PropertyType) :
    x.answer (.property u name (.array t)) =
      (x.answer (.property u name t) >>= fun a => pure (.list a)) :=
  propertyType_array x.catalog u (x.entityType u) name t

theorem answer_unknown {u : TypeUse} {name a : String} (h : x.catalog.get? a = none) :
    x.answer (.property u name (.reference a)) = refuse (.unknownReference name a) :=
  propertyType_unknown x.catalog u (x.entityType u) h name

/-- A reference is answered like its target. -/
theorem answer_reference {u : TypeUse} {name a : String} {e : Entity}
    (h : x.catalog.get? a = some e) :
    x.answer (.property u name (.reference a)) = x.answer (.entity u e) :=
  propertyType_reference x.catalog u (x.entityType u) h name

/-! ### One step for all demands -/

/-- The members of a type are built where its name is reserved, and keep what is there. -/
theorem memberFields_keeps {u : TypeUse} {d : Option String} {before : List FieldDef}
    {ms : List (String × ProjectedField)} (hmembers : HasMembers x q u b d before ms)
    (hbefore : (before.map FieldDef.name).Nodup) (hname : Name.Valid b.name = true)
    (hr : Consistent x (fun _ => True) r) (hreserved : r.Reserved b.name b.signature) :
    r.Within (memberFields x.catalog u (x.entityType u) b.name before ms r).2 ∧
      r.generating <:+
        (memberFields x.catalog u (x.entityType u) b.name before ms r).2.generating := by
  have hserves := members_serves (Q := fun _ => True) hmembers trivial
    (fun m _ s hs => answer_serves_all (.property u (b.name ++ m.1) m.2.type) hs) hbefore hname hr
    hreserved
  exact ⟨hserves.within, hserves.kept⟩

/-- **Every demand for a type of its own is answered alike**, once it has passed the checks: its
type is built unless its name is reserved. A building that fails leaves its name under
construction. -/
theorem exists_build (hb : q.blueprint? x = some b) (hadm : b.Admissible) :
    ∃ build : Compile Unit,
      x.answer q = (unlessReserved b.name b.signature build >>= fun _ => pure q.ref) ∧
      ∀ r f s, Consistent x (fun _ => True) r → r.Reserved b.name b.signature →
        build r = (.error f, s) → r.Within s ∧ r.generating <:+ s.generating := by
  cases builds_of_blueprint hb with
  | entity u e =>
    have hname : Name.Valid (u.typeName e.aliasName) = true := hadm.valid (by simp)
    have hanswer := answer_entity (x := x) u e
    rw [generate_of_valid hname] at hanswer
    exact ⟨_, hanswer, fun r f s hr hreserved => keeps_of_bind_change
      (memberFields_keeps (HasMembers.entity x u e) (by simp) hname hr hreserved)⟩
  | shape u name fs =>
    have hname : Name.Valid name = true := hadm.valid (by simp)
    have hfs : fs ≠ [] := by
      rintro rfl
      exact hadm.inhabited (by cases u <;> rfl) (by cases u <;> rfl)
    have hanswer := answer_shape (x := x) u name hfs
    rw [generate_of_valid hname] at hanswer
    exact ⟨_, hanswer, fun r f s hr hreserved => keeps_of_bind_change
      (memberFields_keeps (HasMembers.shape x u name hfs) .nil hname hr hreserved)⟩
  | filter e =>
    have hanswer : x.answer (.filter e) = (filterInput e >>= fun n => pure (.named n)) := rfl
    rw [filterInput, Compile.bind_assoc] at hanswer
    exact ⟨_, hanswer, fun r f s _ _ => keeps_of_bind_change (addFields_keeps _ _ _ r)⟩
  | sort e =>
    have hanswer : x.answer (.sort e) = (sortInput e >>= fun n => pure (.named n)) := rfl
    rw [sortInput, Compile.bind_assoc] at hanswer
    exact ⟨_, hanswer, fun r f s _ _ => keeps_of_bind_change (addFields_keeps _ _ _ r)⟩

/-! ### The three cases -/

/-- What does not pass the checks is refused, and the registry stays as it is. -/
theorem answer_of_not_admissible (hb : q.blueprint? x = some b) (hadm : ¬ b.Admissible)
    (r : TypeRegistry) : ∃ f, x.answer q r = (.error f, r) := by
  cases builds_of_blueprint hb with
  | entity u e =>
    have hname : Name.Valid (u.typeName e.aliasName) = false := by
      by_contra hvalid
      exact hadm (.entity x (by simpa using hvalid))
    refine ⟨.refused (.invalidName (u.typeName e.aliasName)), ?_⟩
    rw [answer_entity, generate, Compile.bind_assoc]
    exact bind_error (checkName_of_not_valid hname r)
  | shape u name fs =>
    by_cases hfs : fs = []
    · rw [hfs, answer_empty]
      exact ⟨_, rfl⟩
    · have hname : Name.Valid name = false := by
        by_contra hvalid
        exact hadm (.shape (by simpa using hvalid) hfs)
      refine ⟨.refused (.invalidName name), ?_⟩
      rw [answer_shape u name hfs, generate, Compile.bind_assoc]
      exact bind_error (checkName_of_not_valid hname r)
  | filter e => exact absurd (.filter e) hadm
  | sort e => exact absurd (.sort e) hadm

/-- A name that is reserved for the same is referred to. -/
theorem answer_of_reserved (hb : q.blueprint? x = some b) (hadm : b.Admissible)
    (h : r.Reserved b.name b.signature) : x.answer q r = (.ok q.ref, r) := by
  obtain ⟨build, hbuild, -⟩ := exists_build hb hadm
  rw [hbuild, bind_ok (unlessReserved_same h build)]
  rfl

/-- A name that is reserved for something else is a conflict. -/
theorem answer_of_conflict (hb : q.blueprint? x = some b) (hadm : b.Admissible) {t : Signature}
    (h : r.Reserved b.name t) (ht : t ≠ b.signature) :
    x.answer q r = (.error (.refused (.conflict b.name)), r) := by
  obtain ⟨build, hbuild, -⟩ := exists_build hb hadm
  rw [hbuild]
  exact bind_error
    (unlessReserved_other h (fun hf => ht (Signature.fingerprint_injective hf)) build)

/-- A free name is reserved, whatever comes of it. It stays under construction if the building
fails. -/
theorem answer_of_free (hb : q.blueprint? x = some b) (hadm : b.Admissible)
    (hr : Consistent x (fun _ => True) r) (hfree : r.contains b.name = false) :
    (x.answer q r).2.Reserved b.name b.signature ∧
      ∀ f, (x.answer q r).1 = .error f →
        b.name :: r.generating <:+ (x.answer q r).2.generating := by
  have hget := TypeRegistry.get?_eq_none_of_free hfree
  obtain ⟨build, hbuild, hkeeps⟩ := exists_build hb hadm
  have hreserved := r.reserved_enter b.name b.signature
  cases ha : (x.answer q r).1 with
  | ok t =>
    exact ⟨((answer_serves_all q hr).ok t ha).2.2.reserved_of_blueprint hb,
      fun f hf => absurd hf (by simp)⟩
  | error f =>
    have hrun : x.answer q r = (.error f, (x.answer q r).2) := Prod.ext ha rfl
    rw [hbuild] at hrun ⊢
    rcases hbody : build (r.enter b.name b.signature.fingerprint) with ⟨e | a, s⟩
    · have hfail := (unlessReserved_free hget b.signature build).trans hbody
      rw [bind_error hfail]
      obtain ⟨hwithin, hkept⟩ := hkeeps _ _ _ (hr.enter trivial hb hget) hreserved hbody
      exact ⟨hwithin _ _ hreserved, fun _ _ => hkept⟩
    · rw [bind_ok ((unlessReserved_free hget b.signature build).trans hbody)] at hrun
      cases hrun

end Demand

end EntityGraph
