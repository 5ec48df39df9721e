import EntityGraph.Proofs.Compile.Termination
import Mathlib.Data.List.Chain

/-!
Chains of calls. What a call of the recursion calls in turn is written down as a relation between
demands at registries. A call that goes on past an array or into a shape has a smaller type, and a
call that enters the fields of an entity first reserves a name that was free. So the relation is
well-founded, and no chain enters the fields of one type twice. What a call does depends on the
calls in this relation and on no others.
-/

namespace EntityGraph

open Compile

namespace CompileContext

variable (x : CompileContext)

theorem memberFields_keeps {u : TypeUse} {name : String} {before : List FieldDef}
    {ms : List (String × ProjectedField)} {r s : TypeRegistry}
    {a : Except CompileFailure (List FieldDef)}
    (h : memberFields x.catalog u (x.entityType u) name before ms r = (a, s)) : r.Keeps s := by
  have hagree := memberFields_agree
    (fun m (_ : m ∈ ms) n s (_ : r.Keeps s) => x.propertyType_agree_self u m.2.type n s)
    name before (.refl r)
  have hkeeps := hagree.keeps
  rwa [h] at hkeeps

end CompileContext

/-! ### What a call calls -/

/-- What a call for a demand at a registry calls in turn, with the registry at that moment: that
of the call itself, or the one that the members before have left behind. -/
inductive Invokes (x : CompileContext) :
    Demand × TypeRegistry → Demand × TypeRegistry → Prop
  | field {u : TypeUse} {e : Entity} {before after : List (String × ProjectedField)} {k : String}
      {f : ProjectedField} {defs : List FieldDef} {r s : TypeRegistry} :
      Name.Valid (u.typeName e.aliasName) → r.contains (u.typeName e.aliasName) = false →
      x.fieldsOf u e = before ++ (k, f) :: after → k ≠ idField →
      entityFields x.catalog u (x.entityType u) (u.typeName e.aliasName)
          [CompileContext.idFieldDef] before
          (r.enter (u.typeName e.aliasName)
            (u.entitySignature e.aliasName (x.fieldsOf u e)).fingerprint) = (.ok defs, s) →
      Name.Valid k →
      Invokes x (.entity u e, r) (.property u (u.typeName e.aliasName ++ k) f.type, s)
  | member {u : TypeUse} {name k : String} {before after : List (String × PropertyType)}
      {t : PropertyType} {defs : List FieldDef} {r s : TypeRegistry} :
      Name.Valid name → r.contains name = false →
      shapeFields x.catalog u (x.entityType u) name [] before
          (r.enter name (u.shapeSignature (before ++ (k, t) :: after)).fingerprint) =
        (.ok defs, s) →
      Name.Valid k →
      Invokes x (.property u name (.shape (before ++ (k, t) :: after)), r)
        (.property u (name ++ k) t, s)
  | item {u : TypeUse} {name : String} {t : PropertyType} {r : TypeRegistry} :
      Invokes x (.property u name (.array t), r) (.property u name t, r)
  | target {u : TypeUse} {name a : String} {e : Entity} {r : TypeRegistry} :
      x.catalog.get? a = some e → Invokes x (.property u name (.reference a), r) (.entity u e, r)

namespace Invokes

variable {x : CompileContext} {u : TypeUse} {front back : List (String × ProjectedField)}
  {m : String × ProjectedField} {defs : List FieldDef} {r s : TypeRegistry}

/-- The type of an entity calls for a member after the members before it. -/
theorem of_entityMembers {e : Entity} (hvalid : Name.Valid (u.typeName e.aliasName) = true)
    (hfree : r.contains (u.typeName e.aliasName) = false)
    (hms : entityMembers (x.fieldsOf u e) = front ++ m :: back)
    (hrun : memberFields x.catalog u (x.entityType u) (u.typeName e.aliasName)
      [CompileContext.idFieldDef] front (r.enter (u.typeName e.aliasName)
        (u.entitySignature e.aliasName (x.fieldsOf u e)).fingerprint) = (.ok defs, s))
    (hkey : Name.Valid m.1 = true) :
    Invokes x (.entity u e, r) (.property u (u.typeName e.aliasName ++ m.1) m.2.type, s) := by
  obtain ⟨front', rest, hfields, rfl, hrest⟩ := List.filter_eq_append_iff.1 hms
  obtain ⟨skipped, back', rfl, hskipped, hm, -⟩ := List.filter_eq_cons_iff.1 hrest
  -- the fields before the member are those kept and those skipped
  have hsplit : x.fieldsOf u e = (front' ++ skipped) ++ m :: back' := by
    rw [hfields, List.append_assoc]
  have hkept : entityMembers (front' ++ skipped) = entityMembers front' := by
    rw [entityMembers, List.filter_append, List.filter_eq_nil_iff.2 hskipped, List.append_nil]
    rfl
  have hrun' := congrFun (entityFields_eq x.catalog u (x.entityType u) (u.typeName e.aliasName)
    [CompileContext.idFieldDef] (front' ++ skipped)) (r.enter (u.typeName e.aliasName)
      (u.entitySignature e.aliasName (x.fieldsOf u e)).fingerprint)
  rw [hkept] at hrun'
  exact .field hvalid hfree hsplit (by simpa using hm) (hrun'.trans hrun) hkey

/-- The type of a shape calls for a member after the members before it. -/
theorem of_shapeMembers {name : String} {fs : List (String × PropertyType)}
    (hvalid : Name.Valid name = true) (hfree : r.contains name = false)
    (hms : shapeMembers fs = front ++ m :: back)
    (hrun : memberFields x.catalog u (x.entityType u) name [] front
      (r.enter name (u.shapeSignature fs).fingerprint) = (.ok defs, s))
    (hkey : Name.Valid m.1 = true) :
    Invokes x (.property u name (.shape fs), r) (.property u (name ++ m.1) m.2.type, s) := by
  obtain ⟨front', rest, rfl, rfl, hrest⟩ := List.map_eq_append_iff.1 hms
  obtain ⟨f, back', rfl, rfl, rfl⟩ := List.map_eq_cons_iff.1 hrest
  have hfields := congrFun (shapeFields_eq x.catalog u (x.entityType u) name [] front')
    (r.enter name (u.shapeSignature (front' ++ f :: back')).fingerprint)
  exact .member hvalid hfree (hfields.trans hrun) hkey

end Invokes

/-- The name under which a call enters the fields of an entity: it is free. -/
def entered? : Demand × TypeRegistry → Option String
  | (.entity u e, r) =>
    if r.contains (u.typeName e.aliasName) then none else some (u.typeName e.aliasName)
  | _ => none

namespace Invokes

variable {x : CompileContext} {p q : Demand × TypeRegistry}

theorem keeps (h : Invokes x p q) : p.2.Keeps q.2 := by
  cases h with
  | field _ _ _ _ hrun _ =>
    rw [entityFields_eq] at hrun
    exact (TypeRegistry.keeps_enter _ _ _).trans (x.memberFields_keeps hrun)
  | member _ _ hrun _ =>
    rw [shapeFields_eq] at hrun
    exact (TypeRegistry.keeps_enter _ _ _).trans (x.memberFields_keeps hrun)
  | item => exact .refl _
  | target _ => exact .refl _

/-- The name under which a call enters the fields of an entity is free at the call. -/
theorem free_of_entered {n : String} (h : entered? p = some n) : p.2.contains n = false := by
  obtain ⟨d, r⟩ := p
  unfold entered? at h
  split at h
  · rename_i u e s heq
    obtain ⟨-, rfl⟩ := Prod.mk.inj heq
    split at h
    · exact absurd h (by simp)
    · rename_i hfree
      obtain rfl := Option.some.inj h
      simpa using hfree
  · exact absurd h (by simp)

/-- It is reserved at every call made from there. -/
theorem contains_of_entered (h : Invokes x p q) {n : String} (hn : entered? p = some n) :
    q.2.contains n = true := by
  cases h with
  | field hvalid hfree hfields _ hrun _ =>
    rw [entityFields_eq] at hrun
    simp only [entered?, hfree, Bool.false_eq_true, if_false, Option.some.injEq] at hn
    exact x.memberFields_keeps hrun _ ((TypeRegistry.contains_enter _ _ _ _).2 (Or.inl hn.symm))
  | member => exact absurd hn (by simp [entered?])
  | item => exact absurd hn (by simp [entered?])
  | target => exact absurd hn (by simp [entered?])

/-! ### Every chain ends -/

/-- How much there may be left below a call: the names that are free, then the size of a type. -/
noncomputable def rank (x : CompileContext) : Demand × TypeRegistry → ℕ × ℕ
  | (.entity u e, r) => ((r.free u (e.aliasName :: x.catalog.aliases)).card, 0)
  | (.property u _ t, r) => ((r.free u x.catalog.aliases).card, sizeOf t)
  | _ => (0, 0)

theorem rank_lt (h : Invokes x p q) : Prod.Lex (· < ·) (· < ·) (rank x q) (rank x p) := by
  have hkeeps := h.keeps
  cases h with
  | field hvalid hfree hfields hk hrun _ =>
    -- the name of the entity was free and is reserved now
    rw [entityFields_eq] at hrun
    refine .left _ _ (hkeeps.card_free_lt (List.subset_cons_self _ _) List.mem_cons_self hfree ?_)
    exact x.memberFields_keeps hrun _ ((TypeRegistry.contains_enter _ _ _ _).2 (Or.inl rfl))
  | @member u name k before after t =>
    have hsize : sizeOf t < sizeOf (PropertyType.shape (before ++ (k, t) :: after)) :=
      PropertyType.sizeOf_lt_shape (f := (k, t)) (List.mem_append_right _ List.mem_cons_self)
    exact Prod.lex_def.2 ((hkeeps.card_free_le (List.Subset.refl _)).lt_or_eq.imp_right
      fun heq => ⟨heq, hsize⟩)
  | item =>
    exact .right _ (by simp)
  | @target u name a e r ha =>
    -- the entity is one of the catalog, so that no other name counts
    have hsub : e.aliasName :: x.catalog.aliases ⊆ x.catalog.aliases :=
      List.cons_subset.2 ⟨List.mem_map_of_mem (Catalog.mem_of_get? ha), List.Subset.refl _⟩
    have hsize : 0 < sizeOf (PropertyType.reference a) := by
      rw [PropertyType.reference.sizeOf_spec]
      omega
    exact Prod.lex_def.2 ((hkeeps.card_free_le hsub).lt_or_eq.imp_right
      fun heq => ⟨heq, hsize⟩)

/-- **There is no endless chain of calls.** -/
theorem wellFounded (x : CompileContext) : WellFounded fun q p => Invokes x p q :=
  Subrelation.wf rank_lt
    (InvImage.wf (rank x) (WellFounded.prod_lex Nat.lt_wfRel.wf Nat.lt_wfRel.wf))

/-! ### Every name is entered once -/

/-- Every name under which a chain enters the fields of an entity is free where the chain
starts. -/
theorem free_of_chain {rest : List (Demand × TypeRegistry)} (h : (p :: rest).IsChain (Invokes x))
    {n : String} (hn : n ∈ (p :: rest).filterMap entered?) : p.2.contains n = false := by
  induction rest generalizing p with
  | nil =>
    obtain ⟨p', hp', hn'⟩ := List.mem_filterMap.1 hn
    obtain rfl := List.mem_singleton.1 hp'
    exact free_of_entered hn'
  | cons q rest ih =>
    obtain ⟨hcall, hrest⟩ := List.isChain_cons_cons.1 h
    obtain ⟨p', hp', hn'⟩ := List.mem_filterMap.1 hn
    rcases List.mem_cons.1 hp' with rfl | hp'
    · exact free_of_entered hn'
    · -- what is entered later is free at the next call, and was so before
      exact hcall.keeps.free_of_free (ih hrest (List.mem_filterMap.2 ⟨p', hp', hn'⟩))

/-- **No name is entered twice along a chain.** -/
theorem entered_nodup {chain : List (Demand × TypeRegistry)} (h : chain.IsChain (Invokes x)) :
    (chain.filterMap entered?).Nodup := by
  induction chain with
  | nil => exact .nil
  | cons p rest ih =>
    cases he : entered? p with
    | none =>
      rw [List.filterMap_cons_none he]
      exact ih h.tail
    | some n =>
      rw [List.filterMap_cons_some he]
      refine List.nodup_cons.2 ⟨fun hn => ?_, ih h.tail⟩
      cases rest with
      | nil => exact absurd hn List.not_mem_nil
      | cons q rest =>
        obtain ⟨hcall, hrest⟩ := List.isChain_cons_cons.1 h
        have hfree := free_of_chain hrest hn
        rw [hcall.contains_of_entered he] at hfree
        exact absurd hfree (by decide)

end Invokes

/-! ### Nothing else is called -/

section Congruence

variable {c : Catalog} {u : TypeUse} {enter enter' : Entity → Compile String} {name : String}
  {r : TypeRegistry}

theorem memberFields_cons_ok {before : List FieldDef} {m : String × ProjectedField}
    {ms : List (String × ProjectedField)} {t : TypeRef} {s : TypeRegistry}
    (hvalid : Name.Valid m.1 = true)
    (htype : propertyType c u enter (name ++ m.1) m.2.type r = (.ok t, s))
    (hnew : m.1 ∉ before.map FieldDef.name) :
    memberFields c u enter name before (m :: ms) r =
      memberFields c u enter name (before ++ [u.field m.1 t m.2.computation]) ms s := by
  rw [memberFields, bind_ok (checkName_of_valid hvalid r), bind_ok htype]
  exact bind_ok (addField_of_notMem (by simpa using hnew) s)

/-- The fields of members depend on how entities are compiled only where the type of a member is
asked for, after the members before it. -/
theorem memberFields_congr {before : List FieldDef} {ms : List (String × ProjectedField)}
    (h : ∀ front m back defs s, ms = front ++ m :: back →
      memberFields c u enter' name before front r = (.ok defs, s) → Name.Valid m.1 = true →
      propertyType c u enter (name ++ m.1) m.2.type s =
        propertyType c u enter' (name ++ m.1) m.2.type s) :
    memberFields c u enter name before ms r = memberFields c u enter' name before ms r := by
  induction ms generalizing before r with
  | nil => rfl
  | cons m ms ih =>
    cases hvalid : Name.Valid m.1 with
    | false =>
      rw [memberFields, memberFields, bind_error (checkName_of_not_valid hvalid r),
        bind_error (checkName_of_not_valid hvalid r)]
    | true =>
      have hhead := h [] m ms before r rfl rfl hvalid
      rcases htype : propertyType c u enter' (name ++ m.1) m.2.type r with ⟨e | t, s⟩
      · rw [memberFields, memberFields, bind_ok (checkName_of_valid hvalid r),
          bind_ok (checkName_of_valid hvalid r), bind_error (hhead.trans htype), bind_error htype]
      · by_cases hnew : m.1 ∈ before.map FieldDef.name
        · rw [memberFields, memberFields, bind_ok (checkName_of_valid hvalid r),
            bind_ok (checkName_of_valid hvalid r), bind_ok (hhead.trans htype), bind_ok htype,
            bind_error (addField_of_mem (by simpa using hnew) s),
            bind_error (addField_of_mem (by simpa using hnew) s)]
        · rw [memberFields_cons_ok hvalid (hhead.trans htype) hnew,
            memberFields_cons_ok hvalid htype hnew]
          -- a member further on comes after this one as well
          refine ih fun front m' back defs s' hms hrun hvalid' => ?_
          refine h (m :: front) m' back defs s' (by rw [hms]; rfl) ?_ hvalid'
          rw [memberFields_cons_ok hvalid htype hnew]
          exact hrun

theorem generate_congr {s : Signature} {d : Option String} {before : List FieldDef}
    {ms : List (String × ProjectedField)}
    (h : Name.Valid name = true → r.contains name = false →
      memberFields c u enter name before ms (r.enter name s.fingerprint) =
        memberFields c u enter' name before ms (r.enter name s.fingerprint)) :
    generate c u enter name s d before ms r = generate c u enter' name s d before ms r := by
  unfold generate
  cases hvalid : Name.Valid name with
  | false =>
    rw [bind_error (checkName_of_not_valid hvalid r), bind_error (checkName_of_not_valid hvalid r)]
  | true =>
    rw [bind_ok (checkName_of_valid hvalid r), bind_ok (checkName_of_valid hvalid r)]
    cases hget : Fields.get? r.fingerprints name with
    | none =>
      have hfree : r.contains name = false := by
        simp [TypeRegistry.contains, Fields.contains, hget]
      rw [unlessReserved_free hget, unlessReserved_free hget, bind_apply, bind_apply,
        h hvalid hfree]
    | some f =>
      by_cases hf : f = s.fingerprint
      · subst hf
        rw [unlessReserved_same hget, unlessReserved_same hget]
      · rw [unlessReserved_other hget hf, unlessReserved_other hget hf]

end Congruence

namespace Invokes

open Relation

variable {x : CompileContext} {u : TypeUse} {enter : Entity → Compile String}

/-- The type of a property depends on the calls for entities in the relation only. -/
theorem propertyType_eq (t : PropertyType) {name : String} {r : TypeRegistry}
    (h : ∀ e s, TransGen (Invokes x) (.property u name t, r) (.entity u e, s) →
      enter e s = x.entityType u e s) :
    propertyType x.catalog u enter name t r = x.propertyType u name t r := by
  unfold CompileContext.propertyType
  induction t using PropertyType.induct generalizing name r with
  | scalar k => rw [propertyType_scalar, propertyType_scalar]
  | array t ih =>
    rw [propertyType_array, propertyType_array, bind_apply, bind_apply,
      ih fun e s hreach => h e s (.head .item hreach)]
  | reference a =>
    cases ha : x.catalog.get? a with
    | none => rw [propertyType_unknown _ _ _ ha, propertyType_unknown _ _ _ ha]
    | some e =>
      rw [propertyType_reference _ _ _ ha, propertyType_reference _ _ _ ha, bind_apply, bind_apply,
        h e r (.single (.target ha))]
  | shape fs ih =>
    by_cases hfs : fs = []
    · rw [hfs, propertyType_empty, propertyType_empty]
    · rw [propertyType_shape _ _ _ hfs, propertyType_shape _ _ _ hfs, bind_apply, bind_apply]
      rw [generate_congr fun hname hfree => memberFields_congr
        fun front m back defs s hms hrun hvalid => ?_]
      obtain ⟨f, hf, rfl⟩ := List.mem_map.1 (hms ▸ List.mem_append_right _ List.mem_cons_self)
      exact ih f hf fun e t hreach =>
        h e t (.head (.of_shapeMembers hname hfree hms hrun hvalid) hreach)

/-- **A call depends on nothing but the calls in the relation.** -/
theorem enterEntity_eq {e : Entity} {r : TypeRegistry}
    (h : ∀ e' s, TransGen (Invokes x) (.entity u e, r) (.entity u e', s) →
      enter e' s = x.entityType u e' s) :
    x.enterEntity u enter e r = x.entityType u e r := by
  rw [x.entityType_eq, CompileContext.enterEntity_eq, CompileContext.enterEntity_eq, bind_apply,
    bind_apply]
  rw [generate_congr fun hname hfree => memberFields_congr
    fun front m back defs s hms hrun hvalid => ?_]
  exact propertyType_eq m.2.type fun e' t hreach =>
    h e' t (.head (.of_entityMembers hname hfree hms hrun hvalid) hreach)

end Invokes

end EntityGraph
