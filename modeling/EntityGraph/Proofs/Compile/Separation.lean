import EntityGraph.Proofs.Catalog.References
import EntityGraph.Proofs.Compile.Order

/-!
What projections reach. A registry in which all entities of a catalog are compiled has, under the
name of each type, the definition that its demand stands for, and no other: whoever asked for the
name first asked for the same entity or the same shape. What a demand for the persisted side stands
for can be told without projections, and that of a public type with the projection of its own
alias; so two compilations that differ in projections agree on all of these.
-/

namespace EntityGraph

open Compile

/-! ### Definitions without a rival -/

namespace TypeRegistry

/-- The registry has this definition under the name, and no other. -/
def Defines (r : TypeRegistry) (name : String) (d : TypeDef) : Prop :=
  ∀ d', r.Holds name d' ↔ d' = d

variable {r : TypeRegistry} {name : String} {d d' : TypeDef}

/-- A name is not that of an object and of an input. -/
theorem Partitioned.holds_unique (h : r.Partitioned) (hd : r.Holds name d)
    (hd' : r.Holds name d') : d' = d := by
  have hdisjoint : ∀ {o i}, Fields.get? r.objects name = some o →
      Fields.get? r.inputs name = some i → False := by
    intro o i ho hi
    have hfinished := h.nodup.of_append_right
    exact List.disjoint_of_nodup_append hfinished (List.mem_map_of_mem (Fields.mem_of_get? ho))
      (List.mem_map_of_mem (Fields.mem_of_get? hi))
  match d, d', hd, hd' with
  | .object o, .object o', ho, ho' => exact congrArg _ (Option.some.inj (ho'.symm.trans ho))
  | .input i, .input i', hi, hi' => exact congrArg _ (Option.some.inj (hi'.symm.trans hi))
  | .object _, .input _, ho, hi => exact (hdisjoint ho hi).elim
  | .input _, .object _, hi, ho => exact (hdisjoint ho hi).elim

theorem Partitioned.defines (h : r.Partitioned) (hd : r.Holds name d) : r.Defines name d := by
  refine fun d' => ⟨h.holds_unique hd, ?_⟩
  rintro rfl
  exact hd

end TypeRegistry

/-! ### Demands on the entities of a catalog -/

namespace Demand

variable {x : CompileContext} {q q' : Demand} {b b' : Blueprint}

/-- The entity that is asked for is one of the catalog. -/
def Within (c : Catalog) : Demand → Prop
  | .entity _ e => e ∈ c.entities
  | .property _ _ _ => True
  | .filter e => e ∈ c.entities
  | .sort e => e ∈ c.entities

theorem Within.leads (hl : Leads x q q') : q'.Within x.catalog := by
  cases hl with
  | field | member | item => trivial
  | target ha => exact Catalog.mem_of_get? ha

theorem within_of_met (h : Met x (allDemands x.catalog.entities) q) : q.Within x.catalog := by
  obtain ⟨p, hp, hreach⟩ := h
  rcases Relation.ReflTransGen.cases_tail hreach with rfl | ⟨p', -, hl⟩
  · obtain ⟨e, he, hmem⟩ := List.mem_flatMap.1 hp
    simp only [Entity.demands, List.mem_cons, List.not_mem_nil, or_false] at hmem
    rcases hmem with rfl | rfl | rfl | rfl | rfl <;> exact he
  · exact Within.leads hl

/-- An alias names one entity of a catalog. -/
theorem eq_of_alias {c : Catalog} (hc : c.aliases.Nodup) {e e' : Entity} (he : e ∈ c.entities)
    (he' : e' ∈ c.entities) (h : e'.aliasName = e.aliasName) : e' = e :=
  List.inj_on_of_nodup_map hc he' he h

/-- **A name and a signature tell the whole type**, among the demands on one catalog. -/
theorem blueprint_eq (hc : x.catalog.aliases.Nodup) (hq : q.Within x.catalog)
    (hq' : q'.Within x.catalog) (hb : q.blueprint? x = some b) (hb' : q'.blueprint? x = some b')
    (hname : b'.name = b.name) (hsig : b'.signature = b.signature) : b' = b := by
  -- the signatures of filter and sort inputs do not tell the entity, but their names do
  cases builds_of_blueprint hb with
  | entity u e =>
    obtain ⟨e', rfl, halias⟩ := eq_entity hb' hsig
    obtain rfl := eq_of_alias hc hq hq' halias
    exact Option.some.inj (hb'.symm.trans hb)
  | shape u name fs =>
    obtain rfl := eq_shape hb' hsig
    rw [hname] at hb'
    exact Option.some.inj (hb'.symm.trans hb)
  | filter e =>
    cases builds_of_blueprint hb' with
    | entity u | shape u => cases u <;> exact nomatch hsig
    | sort => exact nomatch hsig
    | filter e' =>
      have halias : e'.aliasName = e.aliasName := by
        simpa [Entity.filterInputName, OutputOptions.typeName] using hname
      obtain rfl := eq_of_alias hc hq hq' halias
      rfl
  | sort e =>
    cases builds_of_blueprint hb' with
    | entity u | shape u => cases u <;> exact nomatch hsig
    | filter => exact nomatch hsig
    | sort e' =>
      have halias : e'.aliasName = e.aliasName := by
        simpa [Entity.sortInputName, OutputOptions.typeName] using hname
      obtain rfl := eq_of_alias hc hq hq' halias
      rfl

end Demand

/-! ### One compilation -/

namespace Catalog

/-- All types of all entities compile with these projections. -/
def Compiles (c : Catalog) (ps : ProjectionSet) : Prop :=
  (CompileContext.compileAll ⟨c, ps⟩ c.entities .empty).1.isOk = true

/-- The types that are left behind when all entities are compiled. -/
def types (c : Catalog) (ps : ProjectionSet) : TypeRegistry :=
  (CompileContext.compileAll ⟨c, ps⟩ c.entities .empty).2

variable {c : Catalog} {ps : ProjectionSet}

/-- **Every type that is met has the definition of its demand.** -/
theorem defines_of_met (hc : c.aliases.Nodup) (hok : c.Compiles ps) {q : Demand} {b : Blueprint}
    (hq : Met ⟨c, ps⟩ (allDemands c.entities) q) (hb : q.blueprint? ⟨c, ps⟩ = some b) :
    (c.types ps).Defines b.name b.definition := by
  obtain ⟨hsettled, hserved⟩ := compileAll_settled hok
  obtain ⟨q', b', hq', hdone, hname, hsig, hholds⟩ :=
    hsettled.finished_of_served (hserved q hq) hb
  obtain rfl := Demand.blueprint_eq hc (Demand.within_of_met hq) (Demand.within_of_met hq') hb
    hdone.blueprint hname hsig
  exact hsettled.parts.defines hholds

end Catalog

/-! ### The persisted side -/

/-- The type of a shape with these fields is generated under a name, for a property that is met
under another: the key of each shape on the way is added to the name, and arrays add nothing. -/
inductive PropertyType.ShapeUnder : String → PropertyType → String →
    List (String × PropertyType) → Prop
  | here {name : String} {fs : List (String × PropertyType)} : ShapeUnder name (.shape fs) name fs
  | member {name key n : String} {fs gs : List (String × PropertyType)} {t : PropertyType} :
      (key, t) ∈ fs → ShapeUnder (name ++ key) t n gs → ShapeUnder name (.shape fs) n gs
  | item {name n : String} {t : PropertyType} {gs : List (String × PropertyType)} :
      ShapeUnder name t n gs → ShapeUnder name (.array t) n gs

/-- The names of the persisted side: for each entity its persisted type, its input, its filter
input and its sort input, and the shapes under its persisted type and its input. -/
inductive Catalog.PersistedName (c : Catalog) : String → Prop
  | entity {e : Entity} (he : e ∈ c.entities) : PersistedName c (e.aliasName ++ "Entity")
  | input {e : Entity} (he : e ∈ c.entities) : PersistedName c (e.aliasName ++ "Input")
  | filter {e : Entity} (he : e ∈ c.entities) : PersistedName c (e.aliasName ++ "EntityFilter")
  | sort {e : Entity} (he : e ∈ c.entities) : PersistedName c (e.aliasName ++ "EntitySort")
  | entityShape {e : Entity} {p : String × PropertyType} {n : String}
      {fs : List (String × PropertyType)} (he : e ∈ c.entities) (hp : p ∈ e.propertyTypes)
      (hid : p.1 ≠ "_id") (hn : PropertyType.ShapeUnder (e.aliasName ++ "Entity" ++ p.1) p.2 n fs) :
      PersistedName c n
  | inputShape {e : Entity} {p : String × PropertyType} {n : String}
      {fs : List (String × PropertyType)} (he : e ∈ c.entities) (hp : p ∈ e.propertyTypes)
      (hid : p.1 ≠ "_id") (hn : PropertyType.ShapeUnder (e.aliasName ++ "Input" ++ p.1) p.2 n fs) :
      PersistedName c n

section Persisted

variable {x : CompileContext} {u : TypeUse} {c : Catalog}

/-- The type is compiled from the persisted properties. -/
def TypeUse.Persisted : TypeUse → Prop
  | .output o => o.fields = .persisted
  | .input => True

theorem fieldsOf_of_persisted (hu : u.Persisted) (e : Entity) :
    x.fieldsOf u e = e.persistedFields := by
  unfold CompileContext.fieldsOf
  split
  · split
    · rename_i hfields _
      exact nomatch hfields.symm.trans hu
    · rfl
  · rfl

theorem entityBlueprint_congr {x' : CompileContext} {e : Entity}
    (h : x.fieldsOf u e = x'.fieldsOf u e) : x.entityBlueprint u e = x'.entityBlueprint u e := by
  simp only [CompileContext.entityBlueprint, h]

/-- The shapes under a property that is met are met. -/
theorem met_of_shapeUnder {qs : List Demand} {name n : String} {t : PropertyType}
    {fs : List (String × PropertyType)} (h : PropertyType.ShapeUnder name t n fs)
    (ht : Met x qs (.property u name t)) : Met x qs (.property u n (.shape fs)) := by
  induction h with
  | here => exact ht
  | member hm _ ih => exact ih (ht.leads (.member hm))
  | item _ ih => exact ih (ht.leads .item)

/-- The shapes under the persisted properties of an entity are met with the entity. -/
theorem met_of_entity {qs : List Demand} (hu : u.Persisted) {e : Entity}
    (he : Met x qs (.entity u e)) {p : String × PropertyType} (hp : p ∈ e.propertyTypes)
    (hid : p.1 ≠ idField) {n : String} {fs : List (String × PropertyType)}
    (hn : PropertyType.ShapeUnder (u.typeName e.aliasName ++ p.1) p.2 n fs) :
    Met x qs (.property u n (.shape fs)) := by
  refine met_of_shapeUnder hn (he.leads (.field (f := .plain p.2) ?_ hid))
  rw [fieldsOf_of_persisted hu]
  exact List.mem_map_of_mem hp

theorem mem_allDemands {es : List Entity} {e : Entity} (he : e ∈ es) {q : Demand}
    (hq : q ∈ e.demands) : q ∈ allDemands es := List.mem_flatMap.2 ⟨e, he, hq⟩

theorem typeName_entityType (aliasName : String) :
    (TypeUse.output .entityType).typeName aliasName = aliasName ++ "Entity" := by
  simp [TypeUse.typeName, OutputOptions.typeName, OutputOptions.entityType]

theorem typeName_publicType (aliasName : String) :
    (TypeUse.output .publicType).typeName aliasName = aliasName := by
  simp [TypeUse.typeName, OutputOptions.typeName, OutputOptions.publicType]

/-- **The persisted side does not see projections**: each of its names is that of a type which is
met with all projections, and which is the same with all of them. -/
theorem Catalog.PersistedName.exists_blueprint {n : String} (h : c.PersistedName n) :
    ∃ q b, b.name = n ∧ ∀ ps, Met ⟨c, ps⟩ (allDemands c.entities) q ∧
      q.blueprint? ⟨c, ps⟩ = some b := by
  have hmet : ∀ {e : Entity}, e ∈ c.entities → ∀ q ∈ e.demands, ∀ ps,
      Met ⟨c, ps⟩ (allDemands c.entities) q :=
    fun he q hq ps => Met.of_mem (mem_allDemands he hq)
  have hentity : ∀ {u : TypeUse}, u.Persisted → ∀ e ps,
      (Demand.entity u e).blueprint? ⟨c, ps⟩ =
        some (CompileContext.entityBlueprint ⟨c, .empty⟩ u e) := by
    intro u hu e ps
    refine congrArg some (entityBlueprint_congr ?_)
    rw [fieldsOf_of_persisted hu, fieldsOf_of_persisted hu]
  cases h with
  | @entity e he =>
    refine ⟨.entity (.output .entityType) e,
      CompileContext.entityBlueprint ⟨c, .empty⟩ (.output .entityType) e,
      typeName_entityType _, fun ps => ?_⟩
    exact ⟨hmet he _ (by simp [Entity.demands]) ps, hentity (u := .output .entityType) rfl e ps⟩
  | @input e he =>
    refine ⟨.entity .input e, CompileContext.entityBlueprint ⟨c, .empty⟩ .input e, rfl,
      fun ps => ?_⟩
    exact ⟨hmet he _ (by simp [Entity.demands]) ps, hentity (u := .input) trivial e ps⟩
  | @filter e he =>
    refine ⟨.filter e, _, ?_, fun ps => ⟨hmet he _ (by simp [Entity.demands]) ps, rfl⟩⟩
    simp [Entity.filterInputName, OutputOptions.typeName, OutputOptions.entityType,
      String.append_assoc]
  | @sort e he =>
    refine ⟨.sort e, _, ?_, fun ps => ⟨hmet he _ (by simp [Entity.demands]) ps, rfl⟩⟩
    simp [Entity.sortInputName, OutputOptions.typeName, OutputOptions.entityType,
      String.append_assoc]
  | @entityShape e p n fs he hp hid hn =>
    refine ⟨.property (.output .entityType) n (.shape fs), _, rfl, fun ps => ⟨?_, rfl⟩⟩
    rw [← typeName_entityType] at hn
    exact met_of_entity (u := .output .entityType) rfl (hmet he _ (by simp [Entity.demands]) ps) hp
      hid hn
  | @inputShape e p n fs he hp hid hn =>
    refine ⟨.property .input n (.shape fs), _, rfl, fun ps => ⟨?_, rfl⟩⟩
    exact met_of_entity (u := .input) trivial (hmet he _ (by simp [Entity.demands]) ps) hp hid hn

/-- The public type of an entity sees the projection of its own alias only. -/
theorem fieldsOf_publicType {ps ps' : ProjectionSet} {e : Entity}
    (h : (ps.get? e.aliasName).map (fun p => p.fields e) =
      (ps'.get? e.aliasName).map fun p => p.fields e) :
    CompileContext.fieldsOf ⟨c, ps⟩ (.output .publicType) e =
      CompileContext.fieldsOf ⟨c, ps'⟩ (.output .publicType) e := by
  simp only [CompileContext.fieldsOf, OutputOptions.publicType]
  cases hp : ps.get? e.aliasName <;> cases hp' : ps'.get? e.aliasName <;> simp_all

end Persisted

/-! ### Two compilations -/

/-- **A projection reaches its own public type only.** Where all entities of a catalog compile with
two sets of projections, both registries have the same definition, and no other, under every name
of the persisted side, and under the alias of every entity that both sets give the same fields. -/
theorem types_separated {c : Catalog} {es : List Entity} (hc : Catalog.empty.addAll es = .ok c)
    {ps ps' : ProjectionSet} (hok : c.Compiles ps) (hok' : c.Compiles ps') :
    (∀ n, c.PersistedName n → ∃ d, (c.types ps).Defines n d ∧ (c.types ps').Defines n d) ∧
    (∀ e ∈ c.entities,
      ((ps.get? e.aliasName).map fun p => p.fields e) =
        ((ps'.get? e.aliasName).map fun p => p.fields e) →
      ∃ d, (c.types ps).Defines e.aliasName d ∧ (c.types ps').Defines e.aliasName d) := by
  have hnodup : c.aliases.Nodup := by
    obtain ⟨hdistinct, rfl⟩ := Catalog.addAll_empty_eq_ok_iff.1 hc
    exact hdistinct
  refine ⟨fun n hn => ?_, fun e he hown => ?_⟩
  · obtain ⟨q, b, rfl, hb⟩ := hn.exists_blueprint
    exact ⟨b.definition, Catalog.defines_of_met hnodup hok (hb ps).1 (hb ps).2,
      Catalog.defines_of_met hnodup hok' (hb ps').1 (hb ps').2⟩
  · have hmem : Demand.entity (.output .publicType) e ∈ allDemands c.entities :=
      mem_allDemands he (by simp [Entity.demands])
    have hsame := entityBlueprint_congr (fieldsOf_publicType (c := c) hown)
    have hdef := Catalog.defines_of_met hnodup hok (Met.of_mem hmem) rfl
    have hdef' := Catalog.defines_of_met hnodup hok' (Met.of_mem hmem)
      (congrArg some hsame.symm)
    rw [show (CompileContext.entityBlueprint ⟨c, ps⟩ (.output .publicType) e).name = e.aliasName
      from typeName_publicType _] at hdef hdef'
    exact ⟨_, hdef, hdef'⟩

/-- The public folder of the archive shows its depth, and nothing else differs. -/
theorem types_separated_archive :
    let c := archiveContext.catalog
    let ps := archiveContext.projections
    c.Compiles ps ∧ c.Compiles .empty ∧
      (Fields.get? (c.types ps).objects "Folder").map ObjectType.outline ≠
        (Fields.get? (c.types .empty).objects "Folder").map ObjectType.outline ∧
      (∃ d, (c.types ps).Defines ("Folder" ++ "Entity") d ∧
        (c.types .empty).Defines ("Folder" ++ "Entity") d) ∧
      (∃ d, (c.types ps).Defines ("File" ++ "Input" ++ "place") d ∧
        (c.types .empty).Defines ("File" ++ "Input" ++ "place") d) ∧
      ∃ d, (c.types ps).Defines "File" d ∧ (c.types .empty).Defines "File" d := by
  intro c ps
  have hc : Catalog.empty.addAll [folderEntity, fileEntity] = .ok c :=
    Catalog.addAll_empty_eq_ok_iff.2 ⟨by decide, rfl⟩
  have hok : c.Compiles ps := by
    unfold Catalog.Compiles
    decide +kernel
  have hok' : c.Compiles .empty := by
    unfold Catalog.Compiles
    decide +kernel
  have hfolder : folderEntity ∈ c.entities := List.mem_cons_self
  have hfile : fileEntity ∈ c.entities := List.mem_cons_of_mem _ List.mem_cons_self
  have hplace : c.PersistedName ("File" ++ "Input" ++ "place") :=
    .inputShape hfile List.mem_cons_self (by decide) .here
  have hown : ps.get? fileEntity.aliasName = none := Option.isNone_iff_eq_none.1 (by decide +kernel)
  obtain ⟨hpersisted, hpublic⟩ := types_separated hc hok hok'
  exact ⟨hok, hok', by decide +kernel, hpersisted _ (.entity hfolder), hpersisted _ hplace,
    hpublic fileEntity hfile (congrArg _ hown)⟩

end EntityGraph
