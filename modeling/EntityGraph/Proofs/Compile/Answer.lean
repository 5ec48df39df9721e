import EntityGraph.Proofs.Compile.Serve

/-!
Demands are answered as they should be. At a consistent registry the answer to a demand is its
reference, and the demand is served afterwards; or there is a fault in the demand or in one that
lies behind it. There is one lemma for each operation of the compilation, from the members of a
type up to the answer to a demand.
-/

namespace EntityGraph

open Compile

/-! ### Types with members -/

/-- The type that a demand builds has members, after the fields that are there before. -/
structure HasMembers (x : CompileContext) (q : Demand) (u : TypeUse) (b : Blueprint)
    (d : Option String) (before : List FieldDef) (ms : List (String × ProjectedField)) :
    Prop where
  blueprint : q.blueprint? x = some b
  definition : b.definition = u.typeDef b.name d (before ++ u.fieldDefs b.name ms)
  checked : b.signature.checkedNames b.name = b.name :: ms.map Prod.fst
  outline : (b.signature.outline b.name).map Prod.fst =
    before.map FieldDef.name ++ ms.map Prod.fst
  inhabited : b.signature.isShape = true → b.signature.members ≠ []
  leads : ∀ q', Leads x q q' ↔ ∃ m ∈ ms, q' = .property u (b.name ++ m.1) m.2.type

/-- The type of an entity has the identifier before its members. -/
theorem HasMembers.entity (x : CompileContext) (u : TypeUse) (e : Entity) :
    HasMembers x (.entity u e) u (x.entityBlueprint u e) (some (u.description e))
      [CompileContext.idFieldDef] (entityMembers (x.fieldsOf u e)) := by
  refine ⟨rfl, rfl, ?_, ?_, ?_, fun q' => ?_⟩
  · simp [Signature.checkedNames, u.members_entitySignature, Function.comp_def]
  · rw [u.outline_entitySignature, TypeUse.outlineOf, List.map_cons, List.map_map, List.map_map]
    rfl
  · cases u <;> simp [TypeUse.entitySignature, Signature.isShape]
  · rw [Demand.leads_iff rfl]
    simp [u.members_entitySignature]

/-- The type of a shape has its members only. -/
theorem HasMembers.shape (x : CompileContext) (u : TypeUse) (name : String)
    {fs : List (String × PropertyType)} (hfs : fs ≠ []) :
    HasMembers x (.property u name (.shape fs)) u (u.shapeBlueprint name fs) none []
      (shapeMembers fs) := by
  refine ⟨rfl, rfl, ?_, ?_, ?_, fun q' => ?_⟩
  · simp [Signature.checkedNames, u.members_shapeSignature, Function.comp_def]
  · simp [u.outline_shapeSignature, TypeUse.outlineOf, Function.comp_def]
  · simp [u.members_shapeSignature, shapeMembers, hfs]
  · rw [Demand.leads_iff rfl]
    simp [u.members_shapeSignature]

/-! ### Members -/

/-- The answer is the reference of a demand, and the demand is served. -/
def Answers (x : CompileContext) (q : Demand) (t : TypeRef) (s : TypeRegistry) : Prop :=
  t = q.ref ∧ Served x s q

section Members

variable {x : CompileContext} {P Q : Demand → Prop} {u : TypeUse}
  {enter : Entity → Compile String} {r : TypeRegistry}

theorem memberFields_serves {name : String} {before : List FieldDef}
    {ms : List (String × ProjectedField)}
    (htype : ∀ m ∈ ms, ∀ r, Consistent x P r →
      Serves x P Q (propertyType x.catalog u enter (name ++ m.1) m.2.type)
        (Answers x (.property u (name ++ m.1) m.2.type)) r)
    (hinvalid : ∀ m ∈ ms, Name.Valid m.1 = false → Fault x P Q (.refused (.invalidName m.1)))
    (hrepeated : ∀ f, ¬(before.map FieldDef.name ++ ms.map Prod.fst).Nodup →
      Fault x P Q (.repeatedField name f))
    (hbefore : (before.map FieldDef.name).Nodup) (hr : Consistent x P r) :
    Serves x P Q (memberFields x.catalog u enter name before ms)
      (fun defs s => defs = before ++ u.fieldDefs name ms ∧
        (∀ m ∈ ms, Name.Valid m.1 = true ∧ Served x s (.property u (name ++ m.1) m.2.type)) ∧
        (before.map FieldDef.name ++ ms.map Prod.fst).Nodup) r := by
  induction ms generalizing before r with
  | nil => exact Serves.pure hr ⟨by simp [TypeUse.fieldDefs], by simp, by simpa using hbefore⟩
  | cons m ms ih =>
    unfold memberFields
    refine (Serves.checkName hr (hinvalid m List.mem_cons_self)).bind fun _ s hs _ hvalid => ?_
    refine (htype m List.mem_cons_self s hs).bind fun t s' hs' _ hanswer => ?_
    obtain ⟨rfl, hserved⟩ := hanswer
    refine (Serves.addField hs' fun hmem => hrepeated _ fun hnodup => ?_).bind
      fun before' s'' hs'' hw hmid => ?_
    · rw [TypeUse.field_name] at hmem
      exact List.disjoint_of_nodup_append hnodup hmem List.mem_cons_self
    obtain ⟨hnew, rfl⟩ := hmid
    rw [TypeUse.field_name] at hnew
    -- the field that has been added moves from the members to the fields before them
    have hnames : (before ++ [u.field m.1 (Demand.property u (name ++ m.1) m.2.type).ref
        m.2.computation]).map FieldDef.name ++ ms.map Prod.fst =
        before.map FieldDef.name ++ (m :: ms).map Prod.fst := by simp
    have hrest := ih (fun m hm => htype m (List.mem_cons_of_mem _ hm))
      (fun m hm => hinvalid m (List.mem_cons_of_mem _ hm))
      (fun f hf => hrepeated f (hnames ▸ hf))
      (by
        rw [List.map_append]
        exact List.nodup_append_comm.1 (List.nodup_cons.2 ⟨by simpa using hnew, hbefore⟩)) hs''
    refine hrest.weaken fun defs hlater hdone => ?_
    obtain ⟨hdefs, hms, hnodup⟩ := hdone
    refine ⟨?_, ?_, hnames ▸ hnodup⟩
    · simp [hdefs, TypeUse.fieldDefs, Demand.ref]
    · intro m' hm'
      rcases List.mem_cons.1 hm' with rfl | hm'
      · exact ⟨hvalid, (hserved.mono hw).mono hlater⟩
      · exact hms m' hm'

/-! ### Generated types -/

/-- Under a valid name that is reserved for it, the members of the type of a demand are built, and
with them the type is carried out. -/
theorem members_serves {q : Demand} {b : Blueprint} {d : Option String}
    {before : List FieldDef} {ms : List (String × ProjectedField)}
    (hmembers : HasMembers x q u b d before ms) (hQ : Q q)
    (htype : ∀ m ∈ ms, ∀ r, Consistent x P r →
      Serves x P Q (propertyType x.catalog u enter (b.name ++ m.1) m.2.type)
        (Answers x (.property u (b.name ++ m.1) m.2.type)) r)
    (hbefore : (before.map FieldDef.name).Nodup) (hname : Name.Valid b.name = true)
    (hr : Consistent x P r) (hreserved : r.Reserved b.name b.signature) :
    Serves x P Q (memberFields x.catalog u enter b.name before ms)
      (fun defs s => u.finish b.name d defs s = s.finish b.name b.definition ∧
        CarriedOut x s q b) r := by
  have hb := hmembers.blueprint
  have hfields := memberFields_serves htype
    (fun m hm => Fault.invalid hQ hb
      (hmembers.checked ▸ List.mem_cons_of_mem _ (List.mem_map_of_mem hm)))
    (fun f hf => Fault.repeated hQ hb (hmembers.outline ▸ hf)) hbefore hr
  refine hfields.weaken fun defs hw ⟨hdefs, hms, hnodup⟩ =>
    ⟨?_, hb, hw _ _ hreserved, ⟨?_, ?_, hmembers.inhabited⟩, ?_⟩
  · rw [hmembers.definition, hdefs]
    cases u <;> rfl
  · rw [hmembers.checked]
    intro n hn
    rcases List.mem_cons.1 hn with rfl | hn
    · exact hname
    · obtain ⟨m, hm, rfl⟩ := List.mem_map.1 hn
      exact (hms m hm).1
  · rw [hmembers.outline]
    exact hnodup
  · intro q' hl
    obtain ⟨m, hm, rfl⟩ := (hmembers.leads q').1 hl
    exact (hms m hm).2

/-- The type of a demand is generated from its members. -/
theorem generate_serves {q : Demand} {b : Blueprint} {d : Option String}
    {before : List FieldDef} {ms : List (String × ProjectedField)}
    (hmembers : HasMembers x q u b d before ms) (hQ : Q q) (hP : P q)
    (htype : ∀ m ∈ ms, ∀ r, Consistent x P r →
      Serves x P Q (propertyType x.catalog u enter (b.name ++ m.1) m.2.type)
        (Answers x (.property u (b.name ++ m.1) m.2.type)) r)
    (hbefore : (before.map FieldDef.name).Nodup) (hr : Consistent x P r) :
    Serves x P Q (generate x.catalog u enter b.name b.signature d before ms)
      (fun _ s => Served x s q) r := by
  have hb := hmembers.blueprint
  unfold generate
  refine (Serves.checkName hr fun h => ?_).bind fun _ s hs _ hname => ?_
  · exact Fault.invalid hQ hb (hmembers.checked ▸ List.mem_cons_self) h
  · exact (Serves.unlessReserved hs hQ hP hb fun t ht hreserved =>
      members_serves hmembers hQ htype hbefore hname ht hreserved).weaken
        fun _ _ h => .reserved hb h

/-! ### Properties -/

/-- The type of a property is answered, given that entities are. -/
theorem propertyType_serves (hPQ : ∀ q, Q q → P q)
    (hclosed : ∀ q q', Q q → Leads x q q' → Q q')
    (henter : ∀ e r, Q (.entity u e) → Consistent x P r →
      Serves x P Q (enter e)
        (fun n s => n = u.typeName e.aliasName ∧ Served x s (.entity u e)) r)
    (t : PropertyType) (name : String) (hq : Q (.property u name t)) (hr : Consistent x P r) :
    Serves x P Q (propertyType x.catalog u enter name t) (Answers x (.property u name t)) r := by
  induction t using PropertyType.induct generalizing name r with
  | scalar k =>
    rw [propertyType_scalar]
    exact Serves.pure hr ⟨(u.refTo_scalar name k).symm, .scalar⟩
  | array t ih =>
    rw [propertyType_array]
    refine (ih name (hclosed _ _ hq .item) hr).bind fun t' s hs _ hanswer => ?_
    obtain ⟨rfl, hserved⟩ := hanswer
    exact Serves.pure hs ⟨rfl, .array hserved⟩
  | reference a =>
    cases ha : x.catalog.get? a with
    | none =>
      rw [propertyType_unknown _ _ _ ha]
      exact Serves.of_error rfl hr (.unknown hq ha)
    | some e =>
      rw [propertyType_reference _ _ _ ha]
      refine (henter e r (hclosed _ _ hq (.target ha)) hr).bind fun n s hs _ hanswer => ?_
      obtain ⟨rfl, hserved⟩ := hanswer
      rw [Catalog.get?_alias ha]
      exact Serves.pure hs ⟨rfl, .reference ha hserved⟩
  | shape fs ih =>
    by_cases hfs : fs = []
    · subst hfs
      rw [propertyType_empty]
      exact Serves.of_error rfl hr (.vacant hq)
    · rw [propertyType_shape _ _ _ hfs]
      have hmembers := HasMembers.shape x u name hfs
      refine (generate_serves hmembers hq (hPQ _ hq) (fun m hm r hr => ?_) .nil hr).bind
        fun _ s hs _ hserved => Serves.pure hs ⟨rfl, hserved⟩
      obtain ⟨f, hf, rfl⟩ := List.mem_map.1 hm
      exact ih f hf _ (hclosed _ _ hq (.member hf)) hr

end Members

/-! ### Entities -/

section Demands

variable {x : CompileContext} {P Q : Demand → Prop} {r : TypeRegistry}

/-- The type of an entity is answered along chains of any length. -/
theorem entityTypeWithin_serves (hPQ : ∀ q, Q q → P q)
    (hclosed : ∀ q q', Q q → Leads x q q' → Q q') (u : TypeUse) (n : ℕ) (e : Entity)
    (hq : Q (.entity u e)) (hr : Consistent x P r) :
    Serves x P Q (x.entityTypeWithin u n e)
      (fun n s => n = u.typeName e.aliasName ∧ Served x s (.entity u e)) r := by
  induction n generalizing e r with
  | zero => exact Serves.of_error rfl hr .chain
  | succ n ih =>
    rw [CompileContext.entityTypeWithin, CompileContext.enterEntity_eq]
    have hmembers := HasMembers.entity x u e
    refine (generate_serves hmembers hq (hPQ _ hq) (fun m hm r hr => ?_) (by simp) hr).bind
      fun _ s hs _ hserved => Serves.pure hs ⟨rfl, hserved⟩
    have hfield := hclosed _ _ hq ((hmembers.leads _).2 ⟨m, hm, rfl⟩)
    exact propertyType_serves hPQ hclosed (fun e _ he => ih e he) m.2.type _ hfield hr

theorem entityType_serves (hPQ : ∀ q, Q q → P q)
    (hclosed : ∀ q q', Q q → Leads x q q' → Q q') (u : TypeUse) (e : Entity)
    (hq : Q (.entity u e)) (hr : Consistent x P r) :
    Serves x P Q (x.entityType u e)
      (fun n s => n = u.typeName e.aliasName ∧ Served x s (.entity u e)) r :=
  entityTypeWithin_serves hPQ hclosed u x.chainLimit e hq hr

/-! ### Filter and sort inputs -/

/-- An input without checked names is built from its fields. -/
theorem input_serves {q : Demand} {name : String} {sig : Signature} {d : Option String}
    {fs : List InputField} (hb : q.blueprint? x = some ⟨name, sig, .input ⟨name, d, fs⟩⟩)
    (hused : sig.use? = none) (hQ : Q q) (hP : P q) (hr : Consistent x P r) :
    Serves x P Q
      (unlessReserved name sig
        (addFields name InputField.name [] fs >>= fun fields =>
          change fun r => r.finishInput name ⟨name, d, fields⟩) >>= fun _ => pure name)
      (fun n s => n = name ∧ Served x s q) r := by
  have hnames : (sig.outline name).map Prod.fst = fs.map InputField.name := by
    rw [← (Demand.outline_of_blueprint hb).1]
    simp [TypeDef.outline, InputType.outline, InputField.outline, Function.comp_def]
  have hreserve : Serves x P Q
      (unlessReserved name sig
        (addFields name InputField.name [] fs >>= fun fields =>
          change fun r => r.finishInput name ⟨name, d, fields⟩))
      (fun _ s => s.Reserved name sig) r := by
    refine Serves.unlessReserved hr hQ hP hb fun t ht hreserved => ?_
    have hadd : Serves x P Q (addFields name InputField.name [] fs)
        (fun all _ => (fs.map InputField.name).Nodup ∧ all = fs) t :=
      Serves.addFields ht .nil fun f hf => .repeated hQ hb (hnames ▸ hf)
    refine hadd.weaken fun fields hw hadded => ?_
    obtain ⟨hnodup, hfields⟩ := hadded
    refine ⟨?_, hb, hw _ _ hreserved, ⟨?_, ?_, ?_⟩, ?_⟩
    · rw [hfields]
      rfl
    · simp [Signature.checkedNames, hused]
    · rw [hnames]
      exact hnodup
    · cases sig <;> simp [Signature.use?, Signature.isShape] at hused ⊢
    · intro q' hl
      obtain ⟨u, m, hu, -⟩ := (Demand.leads_iff hb).1 hl
      rw [hused] at hu
      exact absurd hu (by simp)
  exact hreserve.bind fun _ s hs _ h => Serves.pure hs ⟨rfl, .reserved hb h⟩

theorem filterInput_serves (hPQ : ∀ q, Q q → P q) {e : Entity} (hq : Q (.filter e))
    (hr : Consistent x P r) :
    Serves x P Q (filterInput e) (fun n s => n = e.filterInputName ∧ Served x s (.filter e)) r := by
  have hinput := input_serves (x := x) (q := .filter e) rfl rfl hq (hPQ _ hq) hr
  exact hinput

theorem sortInput_serves (hPQ : ∀ q, Q q → P q) {e : Entity} (hq : Q (.sort e))
    (hr : Consistent x P r) :
    Serves x P Q (sortInput e) (fun n s => n = e.sortInputName ∧ Served x s (.sort e)) r := by
  have hinput := input_serves (x := x) (q := .sort e) rfl rfl hq (hPQ _ hq) hr
  exact hinput

/-! ### Demands -/

/-- **Demands are answered**: with their reference, and they are served afterwards. -/
theorem answer_serves (hPQ : ∀ q, Q q → P q)
    (hclosed : ∀ q q', Q q → Leads x q q' → Q q') {q : Demand} (hq : Q q)
    (hr : Consistent x P r) : Serves x P Q (x.answer q) (Answers x q) r := by
  cases q with
  | entity u e =>
    refine (entityType_serves hPQ hclosed u e hq hr).bind fun n s hs _ hanswer => ?_
    obtain ⟨rfl, hserved⟩ := hanswer
    exact Serves.pure hs ⟨rfl, hserved⟩
  | property u name t =>
    refine propertyType_serves hPQ hclosed (fun e s he hs => ?_) t name hq hr
    exact entityType_serves hPQ hclosed u e he hs
  | filter e =>
    refine (filterInput_serves hPQ hq hr).bind fun n s hs _ hanswer => ?_
    obtain ⟨rfl, hserved⟩ := hanswer
    exact Serves.pure hs ⟨rfl, hserved⟩
  | sort e =>
    refine (sortInput_serves hPQ hq hr).bind fun n s hs _ hanswer => ?_
    obtain ⟨rfl, hserved⟩ := hanswer
    exact Serves.pure hs ⟨rfl, hserved⟩

/-- Whatever a demand asks for, it keeps a registry consistent. -/
theorem answer_serves_all (q : Demand) (hr : Consistent x (fun _ => True) r) :
    Serves x (fun _ => True) (fun _ => True) (x.answer q) (Answers x q) r :=
  answer_serves (fun _ h => h) (fun _ _ _ _ => trivial) trivial hr

end Demands

end EntityGraph
