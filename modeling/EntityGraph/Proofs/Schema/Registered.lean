import EntityGraph.Proofs.Schema.Compiled

/-!
What becomes of generated types. They are registered after the types that every interface has and
before the roots, and the later of two types of one name is kept. So a generated type takes the
place of a shared one, gives its own to a root of its name, and is there under every other name as
it was compiled.
-/

namespace EntityGraph

/-! ### Finished types -/

theorem Demand.name_of_blueprint {x : CompileContext} {q : Demand} {b : Blueprint}
    (h : q.blueprint? x = some b) : b.definition.name = b.name := by
  cases builds_of_blueprint h with
  | entity u | shape u => cases u <;> rfl
  | filter | sort => rfl

namespace TypeRegistry

/-- The finished types by their names. -/
def named (r : TypeRegistry) : Fields TypeDef := r.types.map fun t => (t.name, t)

variable {x : CompileContext} {P : Demand → Prop} {r : TypeRegistry}

theorem named_eq (h : Consistent x P r) :
    r.named = r.objects.map (fun o => (o.1, .object o.2)) ++
      r.inputs.map fun i => (i.1, .input i.2) := by
  have hname : ∀ {n : String} {d : TypeDef}, Built x P r n d → d.name = n := by
    rintro n d ⟨q, b, -, hdone, rfl, rfl⟩
    exact Demand.name_of_blueprint hdone.blueprint
  simp only [named, types, List.map_append, List.map_map]
  congr 1
  · exact List.map_congr_left fun o ho => Prod.ext (hname (h.objects o ho)) rfl
  · exact List.map_congr_left fun i hi => Prod.ext (hname (h.inputs i hi)) rfl

theorem distinct_named (h : Consistent x P r) : r.named.Distinct := by
  have hkeys : Fields.keys r.named = Fields.keys r.objects ++ Fields.keys r.inputs := by
    simp [named_eq h, Fields.keys, Function.comp_def]
  rw [Fields.Distinct, hkeys]
  exact h.parts.nodup.of_append_right

theorem get?_named (h : Consistent x P r) {n : String} {d : TypeDef} (hd : r.Holds n d) :
    r.named.get? n = some d := by
  refine Fields.get?_of_mem (distinct_named h) ?_
  rw [named_eq h]
  cases d with
  | object o =>
    exact List.mem_append_left _ (List.mem_map.2 ⟨(n, o), Fields.mem_of_get? hd, rfl⟩)
  | input i =>
    exact List.mem_append_right _ (List.mem_map.2 ⟨(n, i), Fields.mem_of_get? hd, rfl⟩)
  | scalar | enum => exact absurd hd (by simp [Holds])

theorem name_of_holds (h : Consistent x P r) {n : String} {d : TypeDef} (hd : r.Holds n d) :
    d.name = n := by
  obtain ⟨t, -, hentry⟩ := List.mem_map.1 (Fields.mem_of_get? (get?_named h hd))
  obtain ⟨hname, rfl⟩ := Prod.mk.inj hentry
  exact hname

end TypeRegistry

namespace Schema

variable {x : CompileContext} {P : Demand → Prop} {r : TypeRegistry} {roots : RootFields}
  {settings : Settings}

/-- The query root and the mutation root. -/
def queryType (roots : RootFields) : TypeDef := .object ⟨queryRoot, none, roots.query⟩
def mutationType (roots : RootFields) : TypeDef := .object ⟨mutationRoot, none, roots.mutation⟩

/-- A name that is no built-in scalar is looked up in what is registered before these. -/
theorem type?_assemble {n : String} (hn : n ∉ builtInScalars) :
    (assemble settings r roots).type? n =
      Fields.get? (Fields.insertAll
        (Fields.insertAll (Fields.ofList (sharedTypes.map fun t => (t.name, t))) r.named)
        [(queryRoot, queryType roots), (mutationRoot, mutationType roots)]) n := by
  have hkeys : Fields.keys (builtInTypes.map fun t => (t.name, t)) = builtInScalars := by
    simp [Fields.keys, builtInTypes, TypeDef.name, Function.comp_def]
  simp only [type?, assemble, ofTypes, allTypes, List.map_append, Fields.ofList_append]
  rw [Fields.get?_insertAll_of_notMem (hkeys ▸ hn)]
  rfl

theorem type?_assemble_of_holds (h : Consistent x P r) {n : String} {d : TypeDef}
    (hd : r.Holds n d) (hscalar : n ∉ builtInScalars) (hquery : n ≠ queryRoot)
    (hmutation : n ≠ mutationRoot) : (assemble settings r roots).type? n = some d := by
  have hroots : n ∉ Fields.keys
      [(queryRoot, queryType roots), (mutationRoot, mutationType roots)] := by
    simp [Fields.keys, hquery, hmutation]
  rw [type?_assemble hscalar, Fields.get?_insertAll_of_notMem hroots,
    Fields.get?_insertAll (TypeRegistry.distinct_named h), TypeRegistry.get?_named h hd]
  rfl

theorem type?_assemble_query :
    (assemble settings r roots).type? queryRoot = some (queryType roots) := by
  rw [type?_assemble (by decide)]
  simp [Fields.insertAll, Fields.get?_insert, queryRoot, mutationRoot]

theorem type?_assemble_mutation :
    (assemble settings r roots).type? mutationRoot = some (mutationType roots) := by
  rw [type?_assemble (by decide)]
  simp [Fields.insertAll, Fields.get?_insert]

/-- Where the names have been checked, no finished type is named after a built-in scalar. -/
theorem notMem_builtInScalars (h : Consistent x P r) (hnames : checkNames r = .ok ()) {n : String}
    {d : TypeDef} (hd : r.Holds n d) : n ∉ builtInScalars := by
  intro hn
  obtain ⟨t, ht, hentry⟩ := List.mem_map.1 (Fields.mem_of_get? (TypeRegistry.get?_named h hd))
  have hfound : (r.types.find? fun t => builtInScalars.contains t.name).isSome = true := by
    rw [List.find?_isSome]
    refine ⟨t, ht, ?_⟩
    rw [(Prod.mk.inj hentry).1]
    exact List.contains_iff_mem.2 hn
  unfold checkNames at hnames
  split at hnames
  · cases hnames
  · rename_i hnone
    rw [hnone] at hfound
    cases hfound

/-! ### Publishing -/

/-- The types of a schema stay when it is published, and those of the name of the query root get
fields that lead to the description. -/
theorem type?_published {s : Schema} {n : String} {d : TypeDef} (h : s.type? n = some d) :
    s.published.type? n =
      some (if s.settings.introspection then Introspection.addRootFields d else d) := by
  unfold published
  split
  · simp only [type?, describing]
    rw [Fields.get?_append, Fields.get?_map, show Fields.get? s.types n = some d from h]
    rfl
  · exact h

theorem addRootFields_of_name_ne {d : TypeDef} (h : d.name ≠ queryRoot) :
    Introspection.addRootFields d = d := by
  cases d with
  | object o =>
    have hname : ¬ o.name = queryRoot := h
    simp [Introspection.addRootFields, hname]
  | scalar | enum | input => rfl

/-- A finished type that is not named after a root is published as it was compiled. -/
theorem type?_published_of_holds (h : Consistent x P r) (hnames : checkNames r = .ok ())
    {n : String} {d : TypeDef} (hd : r.Holds n d) (hn : n ∉ [queryRoot, mutationRoot]) :
    (assemble settings r roots).published.type? n = some d := by
  obtain ⟨hquery, hmutation⟩ : n ≠ queryRoot ∧ n ≠ mutationRoot := by simpa using hn
  have hscalar := notMem_builtInScalars h hnames hd
  have hname : d.name ≠ queryRoot := TypeRegistry.name_of_holds h hd ▸ hquery
  rw [type?_published (type?_assemble_of_holds h hd hscalar hquery hmutation),
    addRootFields_of_name_ne hname, ite_self]

/-- The fields of the query root of a published schema. -/
def publishedQuery (settings : Settings) (roots : RootFields) : List FieldDef :=
  roots.query ++ if settings.introspection then Introspection.rootFields else []

theorem type?_published_query (settings : Settings) (r : TypeRegistry) (roots : RootFields) :
    (assemble settings r roots).published.type? queryRoot =
      some (.object ⟨queryRoot, none, publishedQuery settings roots⟩) := by
  rw [type?_published type?_assemble_query, publishedQuery]
  cases hshown : settings.introspection with
  | true =>
    rw [if_pos (show (assemble settings r roots).settings.introspection = true from hshown)]
    rfl
  | false =>
    rw [if_neg (by simpa using (show (assemble settings r roots).settings.introspection = false
      from hshown))]
    simp [queryType]

theorem type?_published_mutation (settings : Settings) (r : TypeRegistry) (roots : RootFields) :
    (assemble settings r roots).published.type? mutationRoot = some (mutationType roots) := by
  have hname : (mutationType roots).name ≠ queryRoot := show mutationRoot ≠ queryRoot by decide
  rw [type?_published type?_assemble_mutation, addRootFields_of_name_ne hname, ite_self]

end Schema

/-! ### The types of entities -/

namespace Entity

/-- The names of the types of an entity. -/
def typeNames (e : Entity) : List String :=
  [e.aliasName, e.aliasName ++ "Entity", e.aliasName ++ "EntityFilter", e.aliasName ++ "EntitySort",
    e.aliasName ++ "Input"]

/-- Every type of an entity is demanded. -/
theorem exists_demand_of_typeName (x : CompileContext) {e : Entity} {n : String}
    (hn : n ∈ e.typeNames) : ∃ q ∈ e.demands, ∃ b, q.blueprint? x = some b ∧ b.name = n := by
  simp only [typeNames, List.mem_cons, List.not_mem_nil, or_false] at hn
  simp only [demands, List.mem_cons, List.not_mem_nil, or_false, exists_eq_or_imp,
    exists_eq_left, Demand.blueprint?, Option.some.injEq, exists_eq_left']
  rcases hn with rfl | rfl | rfl | rfl | rfl <;>
    simp [TypeUse.typeName, OutputOptions.typeName, OutputOptions.publicType,
      OutputOptions.entityType, filterInputName, sortInputName, inputTypeName,
      String.append_assoc]

/-- Of the types of an entity, only the public one may be named like a root. -/
theorem eq_alias_of_root {e : Entity} {n : String} (hn : n ∈ e.typeNames)
    (hroot : n ∈ [queryRoot, mutationRoot]) : n = e.aliasName := by
  have hsuffix : ∀ s ∈ ["Entity", "EntityFilter", "EntitySort", "Input"],
      ∀ t ∈ [queryRoot, mutationRoot], ¬ s.toList <:+ t.toList := by decide
  have hnone : ∀ s ∈ ["Entity", "EntityFilter", "EntitySort", "Input"], n ≠ e.aliasName ++ s := by
    intro s hs hname
    refine hsuffix s hs n hroot ?_
    rw [hname, String.toList_append]
    exact List.suffix_append _ _
  rcases List.mem_cons.1 hn with halias | hn
  · exact halias
  · simp only [List.mem_cons, List.not_mem_nil, or_false] at hn
    rcases hn with rfl | rfl | rfl | rfl <;> exact absurd rfl (hnone _ (by simp))

end Entity

/-- The public type that is finished for an entity has a description. -/
theorem Compiled.public_described {x : CompileContext} {roots : RootFields} {r : TypeRegistry}
    {es : List Entity} (h : Compiled x es roots r) {e : Entity} (he : e ∈ es) {d : TypeDef}
    (hd : r.Holds e.aliasName d) : ∃ o, d = .object o ∧ o.description.isSome = true := by
  have hserved := h.served e he (.entity (.output .publicType) e) (by simp [Entity.demands])
  obtain ⟨q, b, -, hdone, hname, hsig, hholds⟩ := h.finished_of_served hserved rfl
  have hentity : b.signature = (TypeUse.output .publicType).entitySignature e.aliasName
      (x.fieldsOf (.output .publicType) e) := hsig
  obtain ⟨e', rfl, -⟩ := Demand.eq_entity hdone.blueprint hentity
  obtain rfl := Option.some.inj hdone.blueprint
  have hsame : (TypeUse.output .publicType).typeName e.aliasName = e.aliasName := by
    simp [TypeUse.typeName, OutputOptions.typeName, OutputOptions.publicType]
  have hfound := TypeRegistry.get?_named h.toConsistent hholds
  rw [show (x.entityBlueprint (.output .publicType) e).name = e.aliasName from hsame] at hfound
  have hdef := Option.some.inj ((TypeRegistry.get?_named h.toConsistent hd).symm.trans hfound)
  exact ⟨_, hdef, rfl⟩

/-- **Generated types are kept, except under the names of the roots.** When a schema is assembled,
every type that has been finished is in it as it was compiled, as long as its name is not that of
a root. All five types of every entity are among them, but for the public type of an entity whose
alias is the name of a root: there the schema has the root, and not the type. -/
theorem build_keeps_generated {x : CompileContext} {bound : String → Bool} {settings : Settings}
    {s : Schema} (h : Schema.build x bound settings = .ok s) :
    ∃ roots r, x.addCatalog bound .empty = (.ok roots, r) ∧
      (∀ n d, r.Holds n d → n ∉ [queryRoot, mutationRoot] → s.type? n = some d) ∧
      s.type? queryRoot =
        some (.object ⟨queryRoot, none, Schema.publishedQuery settings roots⟩) ∧
      s.type? mutationRoot = some (.object ⟨mutationRoot, none, roots.mutation⟩) ∧
      ∀ e ∈ x.catalog.entities, ∀ n ∈ e.typeNames, ∃ d, r.Holds n d ∧
        (s.type? n = some d ↔ ¬ (n = e.aliasName ∧ n ∈ [queryRoot, mutationRoot])) := by
  obtain ⟨roots, r, hrun, hnames, rfl⟩ := Schema.build_ok h
  have hdone := compiled_of_addCatalog hrun
  have hkept : ∀ n d, r.Holds n d → n ∉ [queryRoot, mutationRoot] →
      (Schema.assemble settings r roots).published.type? n = some d := fun _ _ hd hn =>
    Schema.type?_published_of_holds hdone.toConsistent hnames hd hn
  have hquery := Schema.type?_published_query settings r roots
  have hmutation := Schema.type?_published_mutation settings r roots
  refine ⟨roots, r, hrun, hkept, hquery, hmutation, fun e he n hn => ?_⟩
  obtain ⟨q, hq, b, hb, rfl⟩ := e.exists_demand_of_typeName x hn
  obtain ⟨q', b', -, -, -, -, hholds⟩ := hdone.finished_of_served (hdone.served e he q hq) hb
  refine ⟨b'.definition, hholds, fun hsame hroot => ?_, fun hfree => ?_⟩
  · obtain ⟨halias, hroot⟩ := hroot
    obtain ⟨o, ho, hdescribed⟩ := hdone.public_described he (halias ▸ hholds)
    rw [ho] at hsame
    -- a root has no description, and the public type has one
    rcases List.mem_pair.1 hroot with hname | hname
    · rw [hname, hquery] at hsame
      obtain rfl := TypeDef.object.inj (Option.some.inj hsame)
      cases hdescribed
    · rw [hname, hmutation] at hsame
      obtain rfl := TypeDef.object.inj (Option.some.inj hsame)
      cases hdescribed
  · exact hkept _ _ hholds fun hroot => hfree ⟨e.eq_alias_of_root hn hroot, hroot⟩

/-- Texts under an alias that is the name of the query root. -/
def queryContext : CompileContext where
  catalog := ⟨[ { Entity.bare "Query" with properties := [("text", .plain (.scalar .string))] } ]⟩
  projections := .empty

/-- A schema of such texts is assembled, and their public type is not in it. -/
theorem build_keeps_generated_texts :
    ∃ s roots r d, Schema.build queryContext (fun _ => true) .standard = .ok s ∧
      queryContext.addCatalog (fun _ => true) .empty = (.ok roots, r) ∧
      r.Holds "Query" d ∧ s.type? "Query" ≠ some d ∧
      s.type? "Query" =
        some (.object ⟨queryRoot, none, Schema.publishedQuery .standard roots⟩) := by
  have hok : (Schema.build queryContext (fun _ => true) .standard).isOk = true := by
    decide +kernel
  cases hbuild : Schema.build queryContext (fun _ => true) .standard with
  | error f =>
    rw [hbuild] at hok
    cases hok
  | ok s =>
    obtain ⟨roots, r, hrun, -, hquery, -, htypes⟩ := build_keeps_generated hbuild
    obtain ⟨d, hholds, hkept⟩ := htypes _ List.mem_cons_self "Query" List.mem_cons_self
    refine ⟨s, roots, r, d, rfl, hrun, hholds, fun hsame => ?_, hquery⟩
    exact hkept.1 hsame ⟨rfl, List.mem_cons_self⟩

end EntityGraph
