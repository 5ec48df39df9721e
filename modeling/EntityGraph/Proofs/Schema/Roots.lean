import EntityGraph.Proofs.Argument.Conforms
import EntityGraph.Proofs.Compile.Separation
import EntityGraph.Proofs.Query.Bound
import EntityGraph.Proofs.Schema.Registered

/-!
The roots of an assembled schema. They have the fields of every entity in the order of the catalog
and nothing else, and what these refer to is the entity's own: its types, and the repository that
is bound to its alias. Only a public type that is named like a root is hidden behind the root.
-/

namespace EntityGraph

open Compile

/-! ### What root fields are to be -/

namespace Entity

variable (e : Entity)

/-- The names of the types of an entity, by what they are for. -/
def types : EntityTypes where
  publicType := e.aliasName
  entityType := e.aliasName ++ "Entity"
  filter := e.aliasName ++ "EntityFilter"
  sort := e.aliasName ++ "EntitySort"
  input := e.aliasName ++ "Input"

end Entity

/-- A root field as a caller and the host see it: its name, its type, the names and types of its
arguments, and where its value comes from. -/
abbrev RootEntry := String × TypeRef × List (String × TypeRef) × Source

def FieldDef.entry (f : FieldDef) : RootEntry :=
  (f.name, f.type, f.arguments.map fun a => (a.name, a.type), f.source)

namespace Entity

variable (e : Entity)

/-- The arguments of the lists of an entity. -/
def listEntries : List (String × TypeRef) :=
  [("filter", .named (e.aliasName ++ "EntityFilter")),
    ("sort", .named (e.aliasName ++ "EntitySort")), ("skip", .named "Int"), ("limit", .named "Int")]

/-- The queries that an entity is to have. -/
def queryEntries : List RootEntry :=
  let a := e.aliasName
  [ (a ++ "Count", .named "Int", [("filter", .named (a ++ "EntityFilter"))], .query a .count),
    (a ++ "EntityFindById", .named (a ++ "Entity"), [("id", .named "String")],
      .query a .findById),
    (a ++ "List", .list (.named a), e.listEntries, .query a .list),
    (a ++ "EntityList", .list (.named (a ++ "Entity")), e.listEntries, .query a .list),
    if e.maxOne then (a, .named a, [], .query a .singleton)
    else (a ++ "FindById", .named a, [("id", .named "String")], .query a .findById) ]

/-- The mutations that an entity is to have. -/
def mutationEntries : List RootEntry :=
  let a := e.aliasName
  [ (a ++ "Create", .named a, [("record", .named (a ++ "Input"))], .mutation a .create),
    (a ++ "Update", .named a, [("record", .named (a ++ "Input"))], .mutation a .update),
    (a ++ "RemoveById", .named "Boolean", [("id", .named "String")], .mutation a .remove) ]

theorem entries_queryFields : (e.queryFields e.types).map FieldDef.entry = e.queryEntries := by
  unfold queryFields queryEntries recordField
  cases e.maxOne <;> rfl

theorem entries_mutationFields :
    (e.mutationFields e.types).map FieldDef.entry = e.mutationEntries := rfl

end Entity

/-! ### Compiling an entity -/

section Types

variable {x : CompileContext} {e : Entity} {r s : TypeRegistry}

theorem entityType_eq_of_ok {u : TypeUse} {n : String} (h : x.entityType u e r = (.ok n, s)) :
    n = u.typeName e.aliasName := by
  obtain ⟨-, t, -, h⟩ := exists_ok_of_bind h
  obtain ⟨-, t, -, h⟩ := exists_ok_of_bind h
  exact (Except.ok.inj (Prod.mk.inj h).1).symm

theorem filterInput_eq_of_ok {n : String} (h : filterInput e r = (.ok n, s)) :
    n = e.filterInputName := by
  obtain ⟨-, t, -, h⟩ := exists_ok_of_bind h
  exact (Except.ok.inj (Prod.mk.inj h).1).symm

theorem sortInput_eq_of_ok {n : String} (h : sortInput e r = (.ok n, s)) :
    n = e.sortInputName := by
  obtain ⟨-, t, -, h⟩ := exists_ok_of_bind h
  exact (Except.ok.inj (Prod.mk.inj h).1).symm

/-- The names of the types do not depend on what has been compiled before. -/
theorem entityTypes_eq_of_ok {t : EntityTypes} (h : x.entityTypes e r = (.ok t, s)) :
    t = e.types := by
  obtain ⟨publicType, r₁, hpublic, h⟩ := exists_ok_of_bind h
  obtain ⟨entityType, r₂, hentity, h⟩ := exists_ok_of_bind h
  obtain ⟨filter, r₃, hfilter, h⟩ := exists_ok_of_bind h
  obtain ⟨sort, r₄, hsort, h⟩ := exists_ok_of_bind h
  obtain ⟨input, r₅, hinput, h⟩ := exists_ok_of_bind h
  obtain rfl := Except.ok.inj (Prod.mk.inj h).1
  rw [entityType_eq_of_ok hpublic, entityType_eq_of_ok hentity, filterInput_eq_of_ok hfilter,
    sortInput_eq_of_ok hsort, entityType_eq_of_ok hinput, typeName_publicType, typeName_entityType,
    Entity.filterInputName_eq, Entity.sortInputName_eq]
  rfl

theorem mem_demands_within (he : e ∈ x.catalog.entities) :
    ∀ q ∈ e.demands, q.Within x.catalog := by
  simp only [Entity.demands, List.forall_mem_cons]
  exact ⟨he, he, he, he, he, List.forall_mem_nil _⟩

end Types

/-! ### The fields of the roots -/

/-- **What the roots are after entities have been compiled**: the root fields of these entities, in
order, over a registry at rest that serves the demands of these entities, which all have a
repository. -/
structure Rooted (x : CompileContext) (bound : String → Bool) (done : List Entity)
    (roots : RootFields) (r : TypeRegistry) : Prop
    extends Settled x (Demand.Within x.catalog) r where
  bound : ∀ e ∈ done, bound e.aliasName = true
  served : ∀ e ∈ done, ∀ q ∈ e.demands, Served x r q
  query : roots.query = done.flatMap fun e => e.queryFields e.types
  mutation : roots.mutation = done.flatMap fun e => e.mutationFields e.types

namespace Rooted

variable {x : CompileContext} {done : List Entity} {roots roots' : RootFields}
  {r s : TypeRegistry} {bound : String → Bool}

theorem empty : Rooted x bound [] ⟨[], []⟩ .empty where
  toConsistent := .empty
  rest := rfl
  bound := List.forall_mem_nil _
  served := List.forall_mem_nil _
  query := rfl
  mutation := rfl

/-- One more entity adds its root fields. -/
theorem addEntity (h : Rooted x bound done roots r) {e : Entity} (he : e ∈ x.catalog.entities)
    (hrun : x.addEntity bound roots e r = (.ok roots', s)) :
    Rooted x bound (done ++ [e]) roots' s := by
  cases hb : bound e.aliasName with
  | false =>
    unfold CompileContext.addEntity at hrun
    simp only [hb] at hrun
    cases hrun
  | true =>
    rw [Compiled.addEntity_eq hb] at hrun
    obtain ⟨t, r₁, htypes, hadd⟩ := exists_ok_of_bind hrun
    obtain ⟨query, r₂, hquery, hrest⟩ := exists_ok_of_bind hadd
    obtain ⟨mutation, r₃, hmutation, hdone⟩ := exists_ok_of_bind hrest
    obtain rfl := entityTypes_eq_of_ok htypes
    obtain ⟨rfl, rfl⟩ := addFields_eq_of_ok hquery
    obtain ⟨rfl, rfl⟩ := addFields_eq_of_ok hmutation
    obtain ⟨hroots, rfl⟩ := Prod.mk.inj hdone
    obtain rfl := Except.ok.inj hroots
    have hserves := entityTypes_serves (P := Demand.Within x.catalog) (fun _ hq => hq)
      (fun _ _ _ hl => Demand.Within.leads hl) (mem_demands_within he) h.toConsistent
    obtain ⟨hgen, hnew⟩ := hserves.ok e.types (by rw [htypes])
    have hconsistent := hserves.consistent
    have hwithin := hserves.within
    rw [htypes] at hgen hnew hconsistent hwithin
    have hbound : ∀ d ∈ done ++ [e], bound d.aliasName = true :=
      List.forall_mem_append.2 ⟨h.bound, List.forall_mem_singleton.2 hb⟩
    refine ⟨⟨hconsistent, hgen.trans h.rest⟩, hbound, fun d hd q hq => ?_, ?_, ?_⟩
    · -- what was served before stays served, since the registry only grows
      rcases List.mem_append.1 hd with hd | hd
      · exact (h.served d hd q hq).mono hwithin
      · obtain rfl := List.mem_singleton.1 hd
        exact hnew q hq
    · simp [h.query]
    · simp [h.mutation]

theorem addEntities (h : Rooted x bound done roots r) {es : List Entity}
    (hes : es ⊆ x.catalog.entities) (hrun : x.addEntities bound roots es r = (.ok roots', s)) :
    Rooted x bound (done ++ es) roots' s := by
  induction es generalizing done roots r with
  | nil =>
    obtain ⟨hroots, rfl⟩ := Prod.mk.inj hrun
    obtain rfl := Except.ok.inj hroots
    rwa [List.append_nil]
  | cons e es ih =>
    obtain ⟨next, t, hadd, hrest⟩ := exists_ok_of_bind hrun
    rw [List.append_cons]
    exact ih (h.addEntity (hes List.mem_cons_self) hadd)
      (fun d hd => hes (List.mem_cons_of_mem _ hd)) hrest

theorem of_addCatalog (hrun : x.addCatalog bound .empty = (.ok roots, r)) :
    Rooted x bound x.catalog.entities roots r :=
  empty.addEntities (List.Subset.refl _) hrun

/-- **The registry has every type of every entity**, as its blueprint says. -/
theorem holds (h : Rooted x bound x.catalog.entities roots r) (haliases : x.catalog.aliases.Nodup)
    {e : Entity} (he : e ∈ x.catalog.entities) {q : Demand} (hq : q ∈ e.demands) {b : Blueprint}
    (hb : q.blueprint? x = some b) : r.Holds b.name b.definition := by
  obtain ⟨q', b', hq', hdone, hname, hsig, hholds⟩ := h.finished_of_served (h.served e he q hq) hb
  obtain rfl := Demand.blueprint_eq haliases (mem_demands_within he q hq) hq' hb hdone.blueprint
    hname hsig
  exact hholds

end Rooted

/-- Entities whose mutations have different names have different aliases. -/
theorem nodup_aliases_of_mutationNames {es : List Entity}
    (h : (es.flatMap Entity.mutationNames).Nodup) : (es.map Entity.aliasName).Nodup := by
  obtain ⟨-, hdisjoint⟩ := List.nodup_flatMap.1 h
  refine List.pairwise_map.2 (hdisjoint.imp fun {d e} hde halias => ?_)
  have hmem : d.aliasName ++ "Create" ∈ d.mutationNames := List.mem_cons_self
  exact hde hmem (halias ▸ List.mem_cons_self)

/-! ### The types that root fields refer to -/

/-- A schema has the types of an entity as they are compiled, but that a root takes the place of
the public one. -/
structure Schema.HasTypes (s : Schema) (x : CompileContext) (e : Entity) : Prop where
  publicType : s.type? e.aliasName = some (.object (x.objectType .publicType e)) ↔
    e.aliasName ∉ [queryRoot, mutationRoot]
  entityType : s.type? (e.aliasName ++ "Entity") = some (.object (x.objectType .entityType e))
  filter : s.type? (e.aliasName ++ "EntityFilter") = some e.filterBlueprint.definition
  sort : s.type? (e.aliasName ++ "EntitySort") = some e.sortBlueprint.definition
  input : s.type? (e.aliasName ++ "Input") = some (x.entityBlueprint .input e).definition

/-- A type of an entity that has a suffix is not named like a root. -/
theorem Entity.append_notMem_roots (e : Entity) {suffix : String}
    (h : suffix ∈ ["Entity", "EntityFilter", "EntitySort", "Input"]) :
    e.aliasName ++ suffix ∉ [queryRoot, mutationRoot] := by
  intro hroot
  have hname : e.aliasName ++ suffix ∈ e.typeNames :=
    List.mem_cons_of_mem _ (List.mem_map_of_mem (f := (e.aliasName ++ ·)) h)
  have halias : e.aliasName ++ suffix = e.aliasName := e.eq_alias_of_root hname hroot
  have hempty : suffix = "" := by simpa using halias
  rw [hempty] at h
  exact absurd h (by decide)

theorem Rooted.hasTypes {x : CompileContext} {bound : String → Bool} {roots : RootFields}
    {r : TypeRegistry} (h : Rooted x bound x.catalog.entities roots r)
    (haliases : x.catalog.aliases.Nodup) (hnames : Schema.checkNames r = .ok ())
    (settings : Settings) {e : Entity} (he : e ∈ x.catalog.entities) :
    (Schema.assemble settings r roots).published.HasTypes x e := by
  have hkept : ∀ q ∈ e.demands, ∀ b, q.blueprint? x = some b → ∀ n, b.name = n →
      n ∉ [queryRoot, mutationRoot] →
      (Schema.assemble settings r roots).published.type? n = some b.definition := by
    rintro q hq b hb n rfl hroot
    exact Schema.type?_published_of_holds h.toConsistent hnames (h.holds haliases he hq hb) hroot
  have hsuffix : ∀ suffix ∈ ["Entity", "EntityFilter", "EntitySort", "Input"],
      e.aliasName ++ suffix ∉ [queryRoot, mutationRoot] := fun _ hs => e.append_notMem_roots hs
  refine ⟨⟨fun hpublic hroot => ?_, ?_⟩, ?_, ?_, ?_, ?_⟩
  · -- a root has no description, and the public type has one
    rcases List.mem_pair.1 hroot with hname | hname
    · rw [hname, Schema.type?_published_query] at hpublic
      cases congrArg ObjectType.description (TypeDef.object.inj (Option.some.inj hpublic))
    · rw [hname, Schema.type?_published_mutation] at hpublic
      cases congrArg ObjectType.description (TypeDef.object.inj (Option.some.inj hpublic))
  · exact hkept (.entity (.output .publicType) e) (by simp [Entity.demands]) _ rfl _
      (typeName_publicType _)
  · exact hkept (.entity (.output .entityType) e) (by simp [Entity.demands]) _ rfl _
      (typeName_entityType _) (hsuffix _ (by decide))
  · exact hkept (.filter e) (by simp [Entity.demands]) _ rfl _ e.filterInputName_eq
      (hsuffix _ (by decide))
  · exact hkept (.sort e) (by simp [Entity.demands]) _ rfl _ e.sortInputName_eq
      (hsuffix _ (by decide))
  · exact hkept (.entity .input e) (by simp [Entity.demands]) _ rfl _ rfl (hsuffix _ (by decide))

/-! ### Assembled roots -/

/-- **The roots list the entities, and every root field is that of its entity.** When a schema is
assembled, every entity has a repository. The query root has the queries of all entities in the
order of the catalog, followed by those for the description, and the mutation root has their
mutations; no name comes twice. What they refer to are the types of their entity, which the schema
has as they were compiled, except for the public type of an entity whose alias is the name of a
root: under this name the schema has the root. Each root field is bound to the repository of its
entity. -/
theorem roots_list_entities {x : CompileContext} {bound : String → Bool} {settings : Settings}
    {s : Schema} (h : Schema.build x bound settings = .ok s) :
    ∃ query mutation : List FieldDef,
      (s.type? "Query" = some (.object ⟨"Query", none,
          query ++ if settings.introspection then Introspection.rootFields else []⟩) ∧
        s.type? "Mutation" = some (.object ⟨"Mutation", none, mutation⟩)) ∧
      (query.map FieldDef.entry = x.catalog.entities.flatMap Entity.queryEntries ∧
        mutation.map FieldDef.entry = x.catalog.entities.flatMap Entity.mutationEntries) ∧
      ((query.map FieldDef.name).Nodup ∧ (mutation.map FieldDef.name).Nodup) ∧
      (∀ e ∈ x.catalog.entities, bound e.aliasName = true ∧ s.HasTypes x e) ∧
      ∀ f ∈ query ++ mutation, ∃ e ∈ x.catalog.entities,
        f.entry ∈ e.queryEntries ++ e.mutationEntries ∧ f.BoundTo e.aliasName := by
  obtain ⟨roots, r, hrun, hnames, rfl⟩ := Schema.build_ok h
  have hdone := compiled_of_addCatalog hrun
  have hrooted := Rooted.of_addCatalog hrun
  have haliases : x.catalog.aliases.Nodup :=
    nodup_aliases_of_mutationNames (hdone.mutation ▸ hdone.distinctMutation)
  have hquery := Schema.type?_published_query settings r roots
  have hmutation := Schema.type?_published_mutation settings r roots
  refine ⟨roots.query, roots.mutation, ⟨hquery, hmutation⟩, ⟨?_, ?_⟩,
    ⟨hdone.distinctQuery, hdone.distinctMutation⟩,
    fun e he => ⟨hrooted.bound e he, hrooted.hasTypes haliases hnames settings he⟩, fun f hf => ?_⟩
  · rw [hrooted.query, List.map_flatMap]
    exact List.flatMap_congr fun e _ => e.entries_queryFields
  · rw [hrooted.mutation, List.map_flatMap]
    exact List.flatMap_congr fun e _ => e.entries_mutationFields
  · rw [hrooted.query, hrooted.mutation] at hf
    rcases List.mem_append.1 hf with hf | hf
    · obtain ⟨e, he, hmem⟩ := List.mem_flatMap.1 hf
      obtain ⟨p, -, -, hsource⟩ := Entity.queryFields_cases hmem
      have hentry : f.entry ∈ e.queryEntries :=
        e.entries_queryFields ▸ List.mem_map_of_mem hmem
      exact ⟨e, he, List.mem_append_left _ hentry, FieldDef.boundTo_of_query hsource⟩
    · obtain ⟨e, he, hmem⟩ := List.mem_flatMap.1 hf
      obtain ⟨p, -, -, hsource⟩ := Entity.mutationFields_cases hmem
      have hentry : f.entry ∈ e.mutationEntries :=
        e.entries_mutationFields ▸ List.mem_map_of_mem hmem
      exact ⟨e, he, List.mem_append_right _ hentry, FieldDef.boundTo_of_mutation hsource⟩

/-- Texts under an alias that is the name of the query root, and settings with a single record. -/
def rootedContext : CompileContext where
  catalog := ⟨[ { Entity.bare "Query" with properties := [("text", .plain (.scalar .string))] },
    { Entity.bare "settings" with
      maxOne := true, properties := [("site", .plain (.scalar .string))] } ]⟩
  projections := .empty

/-- Both are listed, each with its own types, but the public type of the texts is the query root. -/
theorem roots_list_entities_texts :
    ∃ s query, Schema.build rootedContext (fun _ => true) .standard = .ok s ∧
      s.type? "Query" =
        some (.object ⟨"Query", none, query ++ Introspection.rootFields⟩) ∧
      query.map FieldDef.name =
        [ "QueryCount", "QueryEntityFindById", "QueryList", "QueryEntityList", "QueryFindById",
          "settingsCount", "settingsEntityFindById", "settingsList", "settingsEntityList",
          "settings" ] ∧
      (∃ f ∈ query, f.name = "QueryFindById" ∧ f.type = .named "Query" ∧ f.BoundTo "Query") ∧
      ∀ e ∈ rootedContext.catalog.entities,
        s.type? e.aliasName = some (.object (rootedContext.objectType .publicType e)) ↔
          e.aliasName = "settings" := by
  have hok : (Schema.build rootedContext (fun _ => true) .standard).isOk = true := by
    decide +kernel
  cases hbuild : Schema.build rootedContext (fun _ => true) .standard with
  | error f =>
    rw [hbuild] at hok
    cases hok
  | ok s =>
    obtain ⟨query, mutation, ⟨hquery, -⟩, ⟨hqueries, -⟩, -, htypes, hbound⟩ :=
      roots_list_entities hbuild
    have hnames : query.map FieldDef.name =
        (rootedContext.catalog.entities.flatMap Entity.queryEntries).map Prod.fst := by
      rw [← hqueries, List.map_map]
      rfl
    refine ⟨s, query, rfl, hquery, hnames.trans (by decide), ?_, fun e he => ?_⟩
    · have hmem : ("QueryFindById", .named "Query", [("id", .named "String")],
          .query "Query" .findById) ∈ query.map FieldDef.entry := by
        rw [hqueries]
        exact .tail _ (.tail _ (.tail _ (.tail _ (.head _))))
      obtain ⟨f, hf, hentry⟩ := List.mem_map.1 hmem
      obtain ⟨e, he, hown, hbound⟩ := hbound f (List.mem_append_left _ hf)
      refine ⟨f, hf, congrArg (·.1) hentry, congrArg (·.2.1) hentry, ?_⟩
      have hname := List.mem_map_of_mem (f := Prod.fst) hown
      rw [hentry] at hname
      rcases List.mem_pair.1 he with rfl | rfl
      · exact hbound
      · exact absurd hname (by decide)
    · refine (htypes e he).2.publicType.trans ?_
      rcases List.mem_pair.1 he with rfl | rfl <;> decide

end EntityGraph
