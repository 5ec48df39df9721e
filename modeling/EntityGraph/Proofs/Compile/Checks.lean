import EntityGraph.Proofs.Catalog.References
import EntityGraph.Proofs.Compile.Order
import EntityGraph.Proofs.Compile.Timeline
import EntityGraph.Proofs.Text.Names

/-!
Checks of names. A call checks the name of the type that it generates, and then, once the type is
entered, the keys of its members one after the other. The names of types are derived: from an
alias by an ending, and from the name of an enclosing type by a key. A key is checked before
anything is derived from it, so a derived name that is checked is always valid, and a call that is
refused for a name is refused for a key.
-/

namespace EntityGraph

open Compile

/-! ### Where steps fail -/

namespace Compile

variable {α β : Type} {c : Catalog} {u : TypeUse} {enter : Entity → Compile String}
  {name n : String} {r : TypeRegistry} {before : List FieldDef}
  {ms : List (String × ProjectedField)}

/-- Two steps fail where the first one fails, or else the second. -/
theorem bind_eq_error_iff {d : Compile α} {f : α → Compile β} {e : CompileFailure} :
    ((d >>= f) r).1 = .error e ↔
      (d r).1 = .error e ∨ ∃ a s, d r = (.ok a, s) ∧ (f a s).1 = .error e := by
  rcases hd : d r with ⟨e' | a, s⟩
  · rw [bind_error hd]
    simp
  · rw [bind_ok hd]
    simp

/-- What comes after a step that cannot fail makes no difference. -/
theorem bind_pure_eq_error_iff {d : Compile α} {f : α → β} {e : CompileFailure} :
    ((d >>= fun a => pure (f a)) r).1 = .error e ↔ (d r).1 = .error e := by
  rw [bind_eq_error_iff, or_iff_left]
  rintro ⟨a, s, -, h⟩
  cases h

theorem checkName_eq_invalidName_iff :
    (checkName name r).1 = .error (.refused (.invalidName n)) ↔
      Name.Valid name = false ∧ name = n := by
  cases h : Name.Valid name with
  | true => simp [checkName_of_valid h]
  | false => simp [checkName_of_not_valid h]

theorem unlessReserved_eq_invalidName_iff {sig : Signature} {build : Compile Unit} :
    (unlessReserved name sig build r).1 = .error (.refused (.invalidName n)) ↔
      r.contains name = false ∧
        (build (r.enter name sig.fingerprint)).1 = .error (.refused (.invalidName n)) := by
  unfold TypeRegistry.contains Fields.contains
  cases hget : Fields.get? r.fingerprints name with
  | none => simp [unlessReserved_free hget]
  | some f =>
    by_cases hf : f = sig.fingerprint
    · subst hf
      simp [unlessReserved_same hget]
    · simp [unlessReserved_other hget hf]

/-- A member is refused for its key, or else where its type is. -/
theorem memberFields_single_eq_invalidName_iff {m : String × ProjectedField} :
    (memberFields c u enter name before [m] r).1 = .error (.refused (.invalidName n)) ↔
      Name.Valid m.1 = false ∧ m.1 = n ∨ Name.Valid m.1 = true ∧
        (propertyType c u enter (name ++ m.1) m.2.type r).1 =
          .error (.refused (.invalidName n)) := by
  rw [memberFields]
  cases hvalid : Name.Valid m.1 with
  | false => simp [bind_error (checkName_of_not_valid hvalid r)]
  | true =>
    rw [bind_ok (checkName_of_valid hvalid r), bind_eq_error_iff]
    simp only [reduceCtorEq, false_and, true_and, false_or, or_iff_left_iff_imp]
    rintro ⟨t, s, -, h⟩
    by_cases hnew : m.1 ∈ before.map FieldDef.name
    · rw [bind_error (addField_of_mem (by simpa using hnew) s)] at h
      cases h
    · rw [bind_ok (addField_of_notMem (by simpa using hnew) s)] at h
      cases h

/-- Members are refused for a key, or in the type of a member, after the members before it. -/
theorem memberFields_eq_invalidName_iff :
    (memberFields c u enter name before ms r).1 = .error (.refused (.invalidName n)) ↔
      ∃ front m back defs s, ms = front ++ m :: back ∧
        memberFields c u enter name before front r = (.ok defs, s) ∧
        (Name.Valid m.1 = false ∧ m.1 = n ∨ Name.Valid m.1 = true ∧
          (propertyType c u enter (name ++ m.1) m.2.type s).1 =
            .error (.refused (.invalidName n))) := by
  induction ms generalizing before r with
  | nil => simp [memberFields]
  | cons m ms ih =>
    rw [memberFields_cons, bind_eq_error_iff, memberFields_single_eq_invalidName_iff]
    constructor
    · rintro (h | ⟨defs, s, hrun, hrest⟩)
      · exact ⟨[], m, ms, before, r, rfl, rfl, h⟩
      · obtain ⟨front, m', back, defs', t, rfl, hfront, h⟩ := ih.1 hrest
        refine ⟨m :: front, m', back, defs', t, rfl, ?_, h⟩
        rw [memberFields_cons, bind_ok hrun]
        exact hfront
    · rintro ⟨front, m', back, defs', t, hms, hfront, h⟩
      cases front with
      | nil =>
        obtain ⟨rfl, rfl⟩ := List.cons.inj hms
        obtain ⟨-, rfl⟩ := Prod.mk.inj hfront
        exact .inl h
      | cons m'' front =>
        obtain ⟨rfl, rfl⟩ := List.cons.inj hms
        rw [memberFields_cons] at hfront
        obtain ⟨defs, s, hrun, hrest⟩ := exists_ok_of_bind hfront
        exact .inr ⟨defs, s, hrun, ih.2 ⟨front, m', back, defs', t, rfl, hrest, h⟩⟩

/-- A type is refused for its own name, or else among its members, if it is built. -/
theorem generate_eq_invalidName_iff {sig : Signature} {d : Option String} :
    (generate c u enter name sig d before ms r).1 = .error (.refused (.invalidName n)) ↔
      Name.Valid name = false ∧ name = n ∨
        Name.Valid name = true ∧ r.contains name = false ∧
          (memberFields c u enter name before ms (r.enter name sig.fingerprint)).1 =
            .error (.refused (.invalidName n)) := by
  unfold generate
  rw [bind_eq_error_iff, checkName_eq_invalidName_iff]
  refine or_congr_right ⟨?_, fun ⟨hvalid, h⟩ => ?_⟩
  · rintro ⟨a, s, hcheck, h⟩
    cases hvalid : Name.Valid name with
    | false =>
      rw [checkName_of_not_valid hvalid] at hcheck
      cases hcheck
    | true =>
      rw [checkName_of_valid hvalid] at hcheck
      cases hcheck
      obtain ⟨hfree, hbuild⟩ := unlessReserved_eq_invalidName_iff.1 h
      refine ⟨rfl, hfree, ?_⟩
      exact (bind_eq_error_iff.1 hbuild).resolve_right fun ⟨_, _, _, hchange⟩ => nomatch hchange
  · refine ⟨(), r, checkName_of_valid hvalid r, unlessReserved_eq_invalidName_iff.2 ⟨h.1, ?_⟩⟩
    exact bind_eq_error_iff.2 (.inl h.2)

/-- The fields of an input are not checked for valid names. -/
theorem input_ne_invalidName {sig : Signature} {fs : List InputField}
    {f : List InputField → InputType} :
    (unlessReserved name sig (addFields name InputField.name [] fs >>= fun fields =>
      change fun r => r.finishInput name (f fields)) r).1 ≠ .error (.refused (.invalidName n)) := by
  intro h
  obtain ⟨-, hbuild⟩ := unlessReserved_eq_invalidName_iff.1 h
  have hnil : (([] : List InputField).map InputField.name).Nodup := .nil
  rcases bind_eq_error_iff.1 hbuild with hadd | ⟨_, _, -, hchange⟩
  · rcases addFields_cases hnil name fs (r.enter name sig.fingerprint) with
      ⟨-, hrun⟩ | ⟨-, field, hrun⟩
    all_goals
      rw [hrun] at hadd
      cases hadd
  · cases hchange

end Compile

/-! ### Checks of a call -/

/-- The demands that are answered by generating a type from its members: those for entities and
for shapes that have fields. -/
inductive Generates (x : CompileContext) : Demand → TypeUse → Blueprint → List FieldDef →
    List (String × ProjectedField) → Prop
  | entity (u : TypeUse) (e : Entity) :
      Generates x (.entity u e) u (x.entityBlueprint u e) [CompileContext.idFieldDef]
        (entityMembers (x.fieldsOf u e))
  | shape (u : TypeUse) (name : String) {fs : List (String × PropertyType)} : fs ≠ [] →
      Generates x (.property u name (.shape fs)) u (u.shapeBlueprint name fs) [] (shapeMembers fs)

/-- The demand is for a type that is generated from its members. -/
def Demand.Generating : Demand → Prop
  | .entity _ _ => True
  | .property _ _ (.shape fs) => fs ≠ []
  | .property _ _ _ | .filter _ | .sort _ => False

/-- What a name is checked for. -/
inductive NameRole where
  | typeName
  | key

/-- **The checks of a call**: the name of the type that it generates; and, if this name is valid
and free, the key of each member that those before it let the call come to. -/
inductive Checks (x : CompileContext) : Demand × TypeRegistry → NameRole → String → Prop
  | typeName {q : Demand} {u : TypeUse} {b : Blueprint} {before : List FieldDef}
      {ms : List (String × ProjectedField)} {r : TypeRegistry} :
      Generates x q u b before ms → Checks x (q, r) .typeName b.name
  | key {q : Demand} {u : TypeUse} {b : Blueprint} {before defs : List FieldDef}
      {front back : List (String × ProjectedField)} {m : String × ProjectedField}
      {r s : TypeRegistry} :
      Generates x q u b before (front ++ m :: back) →
      Name.Valid b.name = true → r.contains b.name = false →
      memberFields x.catalog u (x.entityType u) b.name before front
        (r.enter b.name b.signature.fingerprint) = (.ok defs, s) →
      Checks x (q, r) .key m.1

/-- A call is refused for a name that is not valid. -/
def RefusedFor (x : CompileContext) (n : String) (p : Demand × TypeRegistry) : Prop :=
  (x.answer p.1 p.2).1 = .error (.refused (.invalidName n))

section Calls

variable {x : CompileContext} {q : Demand} {u : TypeUse} {b : Blueprint} {before : List FieldDef}
  {ms : List (String × ProjectedField)} {r : TypeRegistry} {n : String}
  {p c : Demand × TypeRegistry}

theorem Generates.generating (h : Generates x q u b before ms) : q.Generating := by
  cases h with
  | entity u e => exact trivial
  | shape u name hfs => exact hfs

theorem Generates.exists_answer (h : Generates x q u b before ms) :
    ∃ d t, x.answer q =
      generate x.catalog u (x.entityType u) b.name b.signature d before ms >>= fun _ => pure t := by
  cases h with
  | entity u e => exact ⟨_, _, Demand.answer_entity u e⟩
  | shape u name hfs => exact ⟨_, _, Demand.answer_shape u name hfs⟩

theorem Generates.unique {u' : TypeUse} {b' : Blueprint} {before' : List FieldDef}
    {ms' : List (String × ProjectedField)} (h : Generates x q u b before ms)
    (h' : Generates x q u' b' before' ms') : u' = u ∧ b' = b ∧ before' = before ∧ ms' = ms := by
  cases h <;> cases h' <;> exact ⟨rfl, rfl, rfl, rfl⟩

theorem Generates.directCalls_eq (h : Generates x q u b before ms) (r : TypeRegistry) :
    x.directCalls (q, r) = x.typeCalls u b.name b.signature before ms r := by
  cases h <;> rfl

/-- A type is refused for a name that the call checks itself, or for one that is checked behind a
call that it makes. -/
theorem Generates.refusedFor_iff (h : Generates x q u b before ms) :
    RefusedFor x n (q, r) ↔ (Name.Valid n = false ∧ ∃ role, Checks x (q, r) role n) ∨
      ∃ c ∈ x.directCalls (q, r), RefusedFor x n c := by
  obtain ⟨d, t, hanswer⟩ := h.exists_answer
  have hrefused : RefusedFor x n (q, r) ↔
      (generate x.catalog u (x.entityType u) b.name b.signature d before ms r).1 =
        .error (.refused (.invalidName n)) := by
    rw [RefusedFor, hanswer, bind_pure_eq_error_iff]
  rw [hrefused, generate_eq_invalidName_iff, memberFields_eq_invalidName_iff, h.directCalls_eq]
  constructor
  · rintro (⟨hinvalid, rfl⟩ | ⟨hvalid, hfree, front, m, back, defs, s, rfl, hrun, hm⟩)
    · exact .inl ⟨hinvalid, _, .typeName h⟩
    · rcases hm with ⟨hinvalid, rfl⟩ | ⟨hkey, hm⟩
      · exact .inl ⟨hinvalid, _, .key h hvalid hfree hrun⟩
      · exact .inr ⟨_, CompileContext.mem_typeCalls_iff.2
          ⟨hvalid, hfree, front, m, back, defs, s, rfl, hrun, hkey, rfl⟩, hm⟩
  · rintro (⟨hinvalid, role, hcheck⟩ | ⟨c, hc, hm⟩)
    · cases hcheck with
      | typeName h' =>
        obtain ⟨-, rfl, -, -⟩ := h.unique h'
        exact .inl ⟨hinvalid, rfl⟩
      | key h' hvalid hfree hrun =>
        obtain ⟨rfl, rfl, rfl, rfl⟩ := h.unique h'
        exact .inr ⟨hvalid, hfree, _, _, _, _, _, rfl, hrun, .inl ⟨hinvalid, rfl⟩⟩
    · obtain ⟨hvalid, hfree, front, m, back, defs, s, hms, hrun, hkey, rfl⟩ :=
        CompileContext.mem_typeCalls_iff.1 hc
      exact .inr ⟨hvalid, hfree, front, m, back, defs, s, hms, hrun, .inr ⟨hkey, hm⟩⟩

/-- A call that generates no type is refused for a name where a call is that it makes. -/
theorem refusedFor_iff_of_not_generating (hq : ¬ q.Generating)
    (h : RefusedFor x n (q, r) ↔ ∃ c ∈ x.directCalls (q, r), RefusedFor x n c) :
    RefusedFor x n (q, r) ↔ (Name.Valid n = false ∧ ∃ role, Checks x (q, r) role n) ∨
      ∃ c ∈ x.directCalls (q, r), RefusedFor x n c := by
  rw [h, iff_or_self]
  rintro ⟨-, role, hcheck⟩
  cases hcheck with
  | typeName hgen | key hgen => exact absurd hgen.generating hq

/-- A call that generates no type and makes no calls is not refused for a name. -/
theorem refusedFor_iff_of_idle (hq : ¬ q.Generating) (hcalls : x.directCalls (q, r) = [])
    (h : ¬ RefusedFor x n (q, r)) :
    RefusedFor x n (q, r) ↔ (Name.Valid n = false ∧ ∃ role, Checks x (q, r) role n) ∨
      ∃ c ∈ x.directCalls (q, r), RefusedFor x n c := by
  refine refusedFor_iff_of_not_generating hq (iff_of_false h ?_)
  rw [hcalls]
  rintro ⟨c, hc, -⟩
  exact absurd hc List.not_mem_nil

/-- **A call is refused for a name** that it checks itself, or that a call is refused for which it
makes. -/
theorem refusedFor_step (p : Demand × TypeRegistry) :
    RefusedFor x n p ↔ (Name.Valid n = false ∧ ∃ role, Checks x p role n) ∨
      ∃ c ∈ x.directCalls p, RefusedFor x n c := by
  obtain ⟨q, r⟩ := p
  cases q with
  | entity u e => exact (Generates.entity u e).refusedFor_iff
  | filter e | sort e =>
    refine refusedFor_iff_of_idle not_false rfl fun h => ?_
    rw [RefusedFor, CompileContext.answer, bind_pure_eq_error_iff] at h
    exact input_ne_invalidName (bind_pure_eq_error_iff.1 h)
  | property u name t =>
    cases t with
    | scalar k =>
      refine refusedFor_iff_of_idle not_false rfl fun h => ?_
      rw [RefusedFor, CompileContext.answer, CompileContext.propertyType,
        propertyType_scalar] at h
      cases h
    | array t =>
      refine refusedFor_iff_of_not_generating not_false ?_
      rw [RefusedFor, Demand.answer_array, bind_pure_eq_error_iff, CompileContext.directCalls]
      simp [RefusedFor]
    | reference a =>
      refine refusedFor_iff_of_not_generating not_false ?_
      cases ha : x.catalog.get? a with
      | none =>
        rw [RefusedFor, Demand.answer_unknown ha, CompileContext.directCalls, ha]
        simp
      | some e =>
        rw [RefusedFor, Demand.answer_reference ha, CompileContext.directCalls, ha]
        simp [RefusedFor]
    | shape fs =>
      by_cases hfs : fs = []
      · subst hfs
        refine refusedFor_iff_of_idle (not_not_intro rfl) (x.directCalls_empty u name r) fun h => ?_
        rw [RefusedFor, Demand.answer_empty] at h
        cases h
      · exact (Generates.shape u name hfs).refusedFor_iff

/-- **A call is refused for a name** if this is checked by the call or by one behind it, and is
not valid. -/
theorem refusedFor_iff :
    RefusedFor x n p ↔ Name.Valid n = false ∧ ∃ c ∈ x.calls p, ∃ role, Checks x c role n := by
  induction p using (Invokes.wellFounded x).induction with
  | _ p ih =>
    rw [refusedFor_step, CompileContext.calls_eq]
    have hcalls : (∃ c ∈ x.directCalls p, RefusedFor x n c) ↔ Name.Valid n = false ∧
        ∃ c ∈ (x.directCalls p).flatMap x.calls, ∃ role, Checks x c role n := by
      constructor
      · rintro ⟨c, hc, h⟩
        obtain ⟨hinvalid, c', hc', h'⟩ := (ih c (CompileContext.mem_directCalls_iff.1 hc)).1 h
        exact ⟨hinvalid, c', List.mem_flatMap.2 ⟨c, hc, hc'⟩, h'⟩
      · rintro ⟨hinvalid, c', hc', h'⟩
        obtain ⟨c, hc, hc'⟩ := List.mem_flatMap.1 hc'
        exact ⟨c, hc, (ih c (CompileContext.mem_directCalls_iff.1 hc)).2 ⟨hinvalid, c', hc', h'⟩⟩
    rw [hcalls, ← and_or_left, List.exists_mem_cons_iff]

end Calls

end EntityGraph
