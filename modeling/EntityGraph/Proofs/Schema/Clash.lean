import EntityGraph.Proofs.Catalog.References
import EntityGraph.Proofs.Compile.Outcome
import EntityGraph.Proofs.Schema.Compiled

/-!
Names that clash. Two things make a type get a field that it already has: a property that is named
like one of the lists of a filter, and an accessor of a single record that is named like a query
of another entity. Nothing in a catalog rules them out, and assembling stops where they occur.
Everything else that could be repeated is kept apart by the aliases, by the keys of properties, or
by the conflict of the types that go with the fields.
-/

namespace EntityGraph

open Compile

/-! ### Clashes -/

/-- A property that can be filtered by is named like a list of filters. -/
def Entity.NamesJoin (e : Entity) : Prop :=
  ∃ p ∈ e.dataTypes, (p.1 = Argument.andKey ∨ p.1 = Argument.orKey) ∧ p.2.scalarLeaf?.isSome = true

/-- The accessor of a single record is named like a query of another entity. -/
def Catalog.AccessorClash (c : Catalog) : Prop :=
  ∃ d ∈ c.entities, ∃ e ∈ c.entities, d.aliasName ≠ e.aliasName ∧ e.maxOne = true ∧
    e.aliasName ∈ d.queryNames

/-- A name that is generated for the catalog clashes with another one. -/
def Catalog.Clashes (c : Catalog) : Prop := (∃ e ∈ c.entities, e.NamesJoin) ∨ c.AccessorClash

/-! ### Filter inputs and sort inputs -/

namespace Entity

variable {e : Entity}

theorem mem_queryNames_of_maxOne (h : e.maxOne = true) : e.aliasName ∈ e.queryNames := by
  simp [queryNames, querySuffixes, h]

theorem nodup_dataTypes (he : e.Distinct) : (e.dataTypes.map Prod.fst).Nodup := by
  have hkeys : e.propertyTypes.map Prod.fst = Fields.keys e.properties := by
    simp [propertyTypes, Fields.keys, Function.comp_def]
  have hall : (e.propertyTypes.map Prod.fst).Nodup := by
    rw [hkeys]
    exact he.1
  exact hall.sublist (List.filter_sublist.map Prod.fst)

theorem idField_notMem_dataTypes : idField ∉ e.dataTypes.map Prod.fst := by
  intro hmem
  obtain ⟨p, hp, hname⟩ := List.mem_map.1 hmem
  have hne : p.1 ≠ idField := by simpa using (List.mem_filter.1 hp).2
  exact hne hname

theorem keys_filterFields (e : Entity) :
    e.filterFields.map Prod.fst =
      idField :: (e.dataTypes.filter fun p => p.2.scalarLeaf?.isSome).map Prod.fst := by
  have hleaves : ∀ ps : List (String × PropertyType),
      (ps.filterMap fun p => p.2.scalarLeaf?.map fun k => (p.1, operatorInputName k)).map Prod.fst =
        (ps.filter fun p => p.2.scalarLeaf?.isSome).map Prod.fst := by
    intro ps
    induction ps with
    | nil => rfl
    | cons p ps ih => cases hp : p.2.scalarLeaf? <;> simp [hp, ih]
  rw [filterFields, List.map_cons, hleaves]

theorem nodup_filterFields (he : e.Distinct) : (e.filterFields.map Prod.fst).Nodup := by
  have hsublist : ((e.dataTypes.filter fun p => p.2.scalarLeaf?.isSome).map Prod.fst).Sublist
      (e.dataTypes.map Prod.fst) := List.filter_sublist.map Prod.fst
  rw [keys_filterFields]
  refine List.nodup_cons.2 ⟨fun hmem => ?_, (nodup_dataTypes he).sublist hsublist⟩
  exact idField_notMem_dataTypes (hsublist.subset hmem)

theorem namesJoin_iff :
    e.NamesJoin ↔ Argument.andKey ∈ e.filterFields.map Prod.fst ∨
      Argument.orKey ∈ e.filterFields.map Prod.fst := by
  have hand : Argument.andKey ≠ idField := by decide
  have hor : Argument.orKey ≠ idField := by decide
  rw [keys_filterFields]
  simp only [List.mem_cons, hand, hor, false_or, List.mem_map, List.mem_filter]
  constructor
  · rintro ⟨p, hp, hname | hname, hleaf⟩
    · exact .inl ⟨p, ⟨hp, hleaf⟩, hname⟩
    · exact .inr ⟨p, ⟨hp, hleaf⟩, hname⟩
  · rintro (⟨p, ⟨hp, hleaf⟩, hname⟩ | ⟨p, ⟨hp, hleaf⟩, hname⟩)
    · exact ⟨p, hp, .inl hname, hleaf⟩
    · exact ⟨p, hp, .inr hname, hleaf⟩

/-- A filter input has every name once, unless a property is named like one of its lists. -/
theorem nodup_filterOutline (he : e.Distinct) :
    (((Signature.filterInput e.filterFields).outline e.filterInputName).map Prod.fst).Nodup ↔
      ¬ e.NamesJoin := by
  have hnames : ((Signature.filterInput e.filterFields).outline e.filterInputName).map Prod.fst =
      e.filterFields.map Prod.fst ++ [Argument.andKey, Argument.orKey] := by
    simp [Signature.outline, Argument.andKey, Argument.orKey, Function.comp_def]
  have hlists : [Argument.andKey, Argument.orKey].Nodup := by decide
  rw [hnames, namesJoin_iff, List.nodup_append', not_or]
  constructor
  · rintro ⟨-, -, hdisjoint⟩
    exact ⟨fun hand => hdisjoint hand (by simp), fun hor => hdisjoint hor (by simp)⟩
  · rintro ⟨hand, hor⟩
    refine ⟨nodup_filterFields he, hlists, fun n hn hlist => ?_⟩
    rcases List.mem_pair.1 hlist with rfl | rfl
    · exact hand hn
    · exact hor hn

theorem nodup_sortOutline (he : e.Distinct) :
    (((Signature.sortInput e.sortFields).outline e.sortInputName).map Prod.fst).Nodup := by
  have hsublist : ((e.dataTypes.filter fun p => p.2.scalarKind?.isSome).map Prod.fst).Sublist
      (e.dataTypes.map Prod.fst) := List.filter_sublist.map Prod.fst
  have hnames : ((Signature.sortInput e.sortFields).outline e.sortInputName).map Prod.fst =
      e.sortFields := by
    simp [Signature.outline, Function.comp_def]
  rw [hnames, sortFields]
  refine List.nodup_cons.2 ⟨fun hmem => ?_, (nodup_dataTypes he).sublist hsublist⟩
  exact idField_notMem_dataTypes (hsublist.subset hmem)

end Entity

/-! ### Root fields -/

section Roots

variable {x : CompileContext} {r : TypeRegistry}

/-- Where the types of two entities are served, the public type of one is not named like the
persisted type of the other. -/
theorem alias_ne_of_served {d e : Entity} (hd : ∀ q ∈ d.demands, Served x r q)
    (he : ∀ q ∈ e.demands, Served x r q) : d.aliasName ≠ e.aliasName ++ "Entity" := by
  intro hname
  have hpublic := hd (.entity (.output .publicType) d) (by simp [Entity.demands])
  have hentity := he (.entity (.output .entityType) e) (by simp [Entity.demands])
  have hsame : (x.entityBlueprint (.output .entityType) e).name =
      (x.entityBlueprint (.output .publicType) d).name := by
    simp [TypeUse.typeName, OutputOptions.typeName, OutputOptions.publicType,
      OutputOptions.entityType, hname]
  obtain ⟨-, hoptions, -⟩ :=
    Signature.entityObject.inj (hpublic.signature_eq rfl hentity rfl hsame)
  exact absurd hoptions (by decide)

/-- **Queries of different entities have different names**, where the types of the entities are
served and no accessor clashes. -/
theorem nodup_flatMap_queryNames {es : List Entity}
    (hserved : ∀ e ∈ es, ∀ q ∈ e.demands, Served x r q) (haliases : (es.map Entity.aliasName).Nodup)
    (hclash : ∀ d ∈ es, ∀ e ∈ es, d.aliasName ≠ e.aliasName → e.maxOne = true →
      e.aliasName ∉ d.queryNames) :
    (es.flatMap Entity.queryNames).Nodup := by
  refine List.nodup_flatMap.2 ⟨fun e _ => e.nodup_queryNames, ?_⟩
  refine (List.pairwise_map.1 haliases).imp_of_mem fun {d e} hd he hne n hn hn' => ?_
  rcases Entity.alias_cases_of_queryName hn hn' with hsame | ⟨hone, rfl⟩ | ⟨hone, rfl⟩ | hde | hed
  · exact hne hsame
  · exact hclash e he d hd (Ne.symm hne) hone hn'
  · exact hclash d hd e he hne hone hn
  · exact alias_ne_of_served (hserved d hd) (hserved e he) hde
  · exact alias_ne_of_served (hserved e he) (hserved d hd) hed

theorem nodup_flatMap_mutationNames {es : List Entity}
    (haliases : (es.map Entity.aliasName).Nodup) : (es.flatMap Entity.mutationNames).Nodup := by
  refine List.nodup_flatMap.2 ⟨fun e _ => e.nodup_mutationNames, ?_⟩
  refine (List.pairwise_map.1 haliases).imp fun {d e} hne n hn hn' => ?_
  exact hne (Entity.alias_eq_of_mutationName hn hn')

end Roots

/-! ### How assembling ends -/

/-- The demand is for a type in which no key is repeated, or for an input of an entity of the
catalog. -/
def Demand.Cataloged (x : CompileContext) (q : Demand) : Prop :=
  q.WellKeyed ∨ ∃ e ∈ x.catalog.entities, q = .filter e ∨ q = .sort e

/-- Why assembling stops: an error that it reports, or a field that is repeated, and where. -/
inductive Stops (c : Catalog) : CompileFailure → Prop
  | refused (e : SchemaError) : Stops c (.refused e)
  | accessor {n : String} : c.AccessorClash → Stops c (.repeatedField queryRoot n)
  | join {e : Entity} {n : String} :
      e ∈ c.entities → e.NamesJoin → Stops c (.repeatedField e.filterInputName n)

section Assembling

variable {x : CompileContext}

theorem Demand.Cataloged.leads (hx : x.WellKeyed) {q q' : Demand} (h : q.Cataloged x)
    (hl : Leads x q q') : q'.Cataloged x := by
  rcases h with hq | ⟨e, -, rfl | rfl⟩
  · exact .inl (hq.leads hx hl)
  · cases hl
  · cases hl

theorem cataloged_demands (hx : x.WellKeyed) {e : Entity} (he : e ∈ x.catalog.entities) :
    ∀ q ∈ e.demands, q.Cataloged x := by
  have hkeyed : e.Distinct := hx.entities e he
  simp only [Entity.demands, List.forall_mem_cons]
  exact ⟨.inl hkeyed, .inl hkeyed, .inr ⟨e, he, .inl rfl⟩, .inr ⟨e, he, .inr rfl⟩, .inl hkeyed,
    List.forall_mem_nil _⟩

/-- A fault of such a demand is reported, unless it is a clash in a filter input. -/
theorem stops_of_fault (hx : x.WellKeyed) {f : CompileFailure}
    (hf : Fault x (fun _ => True) (Demand.Cataloged x) f) (hchain : f ≠ .chainTooLong) :
    Stops x.catalog f := by
  cases hf with
  | chain => exact absurd rfl hchain
  | invalid | vacant | unknown | conflict => exact .refused _
  | repeated hq hb hrepeated =>
    rcases hq with hq | ⟨e, he, rfl | rfl⟩
    · exact absurd (hq.nodup hx hb) hrepeated
    · obtain rfl := Option.some.inj hb
      have hjoin : e.NamesJoin := by
        by_contra hnone
        exact hrepeated ((Entity.nodup_filterOutline (hx.entities e he)).2 hnone)
      exact .join he hjoin
    · obtain rfl := Option.some.inj hb
      exact absurd (Entity.nodup_sortOutline (hx.entities e he)) hrepeated

theorem stops_of_setback (hx : x.WellKeyed) (haliases : x.catalog.aliases.Nodup)
    {es : List Entity} (hes : es <+: x.catalog.entities) {f : CompileFailure}
    (hf : Setback x (Demand.Cataloged x) es f) : Stops x.catalog f := by
  have hnodup : (es.map Entity.aliasName).Nodup :=
    haliases.sublist (hes.sublist.map Entity.aliasName)
  cases hf with
  | unbound => exact .refused _
  | fault hfault hchain => exact stops_of_fault hx hfault hchain
  | query hserved hrepeated =>
    refine .accessor ?_
    by_contra hnone
    refine hrepeated (nodup_flatMap_queryNames hserved hnodup fun d hd e he hne hone hmem => ?_)
    exact hnone ⟨d, hes.subset hd, e, hes.subset he, hne, hone, hmem⟩
  | mutation hrepeated => exact absurd (nodup_flatMap_mutationNames hnodup) hrepeated

theorem stops_of_build_error (hx : x.WellKeyed) (haliases : x.catalog.aliases.Nodup)
    {bound : String → Bool} {settings : Settings} {f : CompileFailure}
    (h : Schema.build x bound settings = .error f) : Stops x.catalog f := by
  rcases Schema.build_error h with ⟨e, rfl⟩ | ⟨r, hrun⟩
  · exact .refused e
  · rcases addCatalog_cases (fun _ _ hq hl => Demand.Cataloged.leads hx hq hl)
      (fun _ he => cataloged_demands hx he) bound with
      ⟨roots, s, hok, -⟩ | ⟨f', s, hrun', es, hes, hset⟩
    · have hanswer := congrArg Prod.fst (hrun.symm.trans hok)
      cases hanswer
    · have hanswer := congrArg Prod.fst (hrun.symm.trans hrun')
      obtain rfl : f = f' := Except.error.inj hanswer
      exact stops_of_setback hx haliases hes hset

/-- Nothing is repeated in a catalog that has been compiled. -/
theorem Compiled.not_clashes (hx : x.WellKeyed) {roots : RootFields} {r : TypeRegistry}
    (h : Compiled x x.catalog.entities roots r) : ¬ x.catalog.Clashes := by
  rintro (⟨e, he, hjoin⟩ | ⟨d, hd, e, he, hne, hone, hmem⟩)
  · have hserved := h.served e he (.filter e) (by simp [Entity.demands])
    have hsound := h.sound_of_served hserved rfl
    exact (Entity.nodup_filterOutline (hx.entities e he)).1 hsound.distinct hjoin
  · have hnames := h.distinctQuery
    rw [h.query] at hnames
    obtain ⟨-, hdisjoint⟩ := List.nodup_flatMap.1 hnames
    have hsymm : Std.Symm (Function.onFun List.Disjoint Entity.queryNames) :=
      ⟨fun _ _ hab => hab.symm⟩
    have hapart := hdisjoint.forall hd he fun hsame => hne (congrArg Entity.aliasName hsame)
    exact hapart hmem (Entity.mem_queryNames_of_maxOne hone)

end Assembling

/-- **A schema is assembled or refused, unless names clash.** Take a catalog that is built in one
piece, with projections and repositories of any kind. As long as no property that can be filtered
by is called like a list of filters, and no accessor of a single record is called like a query of
another entity, assembling ends with a schema or with an error that is reported. With such a
clash there is never a schema, and the one way to stop without an error that is reported is to
repeat a field where the clash is: in a filter input or in the query root. No other type gets a
field that it has, and no chain of references is too long. -/
theorem build_ends_unless_clash {x : CompileContext} {es : List Entity}
    (hcatalog : Catalog.ofEntities es = .ok x.catalog) (hx : x.WellKeyed) (bound : String → Bool)
    (settings : Settings) :
    (¬ x.catalog.Clashes → (∃ s, Schema.build x bound settings = .ok s) ∨
      ∃ e, Schema.build x bound settings = .error (.refused e)) ∧
    (x.catalog.Clashes → ∀ s, Schema.build x bound settings ≠ .ok s) ∧
    (∀ f, Schema.build x bound settings = .error f → Stops x.catalog f) := by
  have hstops : ∀ f, Schema.build x bound settings = .error f → Stops x.catalog f := fun _ hf =>
    stops_of_build_error hx (Catalog.nodup_of_ofEntities hcatalog) hf
  refine ⟨fun hnone => ?_, fun hclash s hs => ?_, hstops⟩
  · cases hrun : Schema.build x bound settings with
    | ok s => exact .inl ⟨s, rfl⟩
    | error f =>
      cases hstops f hrun with
      | refused e => exact .inr ⟨e, rfl⟩
      | accessor hclash => exact absurd (.inr hclash) hnone
      | join he hjoin => exact absurd (.inl ⟨_, he, hjoin⟩) hnone
  · obtain ⟨roots, r, hrun, -⟩ := Schema.build_ok hs
    exact (compiled_of_addCatalog hrun).not_clashes hx hclash

/-- Products, and a single record whose accessor is called like the count of products. -/
def productContext : CompileContext where
  catalog := ⟨[ { Entity.bare "product" with properties := [("name", .plain (.scalar .string))] },
    { Entity.bare "productCount" with
      maxOne := true, properties := [("n", .plain (.scalar .number))] } ]⟩
  projections := .empty

theorem productContext_wellKeyed : productContext.WellKeyed where
  entities := by
    intro e he
    rcases List.mem_pair.1 he with rfl | rfl <;>
      simp [Entity.Distinct, Property.plain, PropertyType.Distinct, Fields.Distinct, Fields.keys]
  projections a p hp := by cases hp

/-- Nothing is assembled of products and their count, and no error is reported. -/
theorem build_ends_unless_clash_products :
    Catalog.ofEntities productContext.catalog.entities = .ok productContext.catalog ∧
      productContext.WellKeyed ∧ productContext.catalog.Clashes ∧
      (∀ s, Schema.build productContext (fun _ => true) .standard ≠ .ok s) ∧
      Schema.build productContext (fun _ => true) .standard =
        .error (.repeatedField "Query" "productCount") := by
  have hclash : productContext.catalog.Clashes := by
    refine .inr ⟨_, List.mem_cons_self, _, List.mem_cons_of_mem _ List.mem_cons_self, ?_, rfl, ?_⟩
    · decide
    · exact List.mem_cons_self
  have hcatalog : Catalog.ofEntities productContext.catalog.entities = .ok productContext.catalog :=
    rfl
  obtain ⟨-, hnone, -⟩ :=
    build_ends_unless_clash hcatalog productContext_wellKeyed (fun _ => true) .standard
  exact ⟨hcatalog, productContext_wellKeyed, hclash, hnone hclash, rfl⟩

end EntityGraph
