import EntityGraph.Proofs.Compile.Order
import EntityGraph.Proofs.Schema.RootNames

/-!
Catalogs compiled entity by entity. Each entity takes the registry from rest to rest and adds its
root fields to those before them, or the compilation stops. When it stops, the reason is a
repository that is missing, a fault of a demand, or a root field that is there already.
-/

namespace EntityGraph

open Compile

/-! ### Compiled entities -/

/-- The root fields of an entity are added to those before them. -/
def RootFields.add (roots : RootFields) (e : Entity) (t : EntityTypes) : Compile RootFields :=
  addFields queryRoot FieldDef.name roots.query (e.queryFields t) >>= fun query =>
    addFields mutationRoot FieldDef.name roots.mutation (e.mutationFields t) >>= fun mutation =>
      pure ⟨query, mutation⟩

/-- **What holds after entities have been compiled**: the registry is at rest and serves all their
demands, and the roots have their fields, each name once. -/
structure Compiled (x : CompileContext) (done : List Entity) (roots : RootFields)
    (r : TypeRegistry) : Prop extends Settled x (fun _ => True) r where
  served : ∀ e ∈ done, ∀ q ∈ e.demands, Served x r q
  query : roots.query.map FieldDef.name = done.flatMap Entity.queryNames
  mutation : roots.mutation.map FieldDef.name = done.flatMap Entity.mutationNames
  distinctQuery : (roots.query.map FieldDef.name).Nodup
  distinctMutation : (roots.mutation.map FieldDef.name).Nodup

/-- Why the compilation of entities may stop, where it serves demands of some kind. -/
inductive Setback (x : CompileContext) (Q : Demand → Prop) (es : List Entity) :
    CompileFailure → Prop
  | unbound {a : String} : Setback x Q es (.refused (.missingRepository a))
  | fault {f : CompileFailure} :
      Fault x (fun _ => True) Q f → f ≠ .chainTooLong → Setback x Q es f
  | query {r : TypeRegistry} {f : String} :
      (∀ e ∈ es, ∀ q ∈ e.demands, Served x r q) → ¬ (es.flatMap Entity.queryNames).Nodup →
      Setback x Q es (.repeatedField queryRoot f)
  | mutation {f : String} :
      ¬ (es.flatMap Entity.mutationNames).Nodup → Setback x Q es (.repeatedField mutationRoot f)

namespace Compiled

variable {x : CompileContext} {Q : Demand → Prop} {done : List Entity} {roots : RootFields}
  {r : TypeRegistry}

theorem empty : Compiled x [] ⟨[], []⟩ .empty where
  toConsistent := .empty
  rest := rfl
  served := List.forall_mem_nil _
  query := rfl
  mutation := rfl
  distinctQuery := .nil
  distinctMutation := .nil

theorem addEntity_eq {bound : String → Bool} {e : Entity} (hb : bound e.aliasName = true)
    (x : CompileContext) (roots : RootFields) :
    x.addEntity bound roots e = x.entityTypes e >>= roots.add e := by
  unfold CompileContext.addEntity
  simp only [hb]
  rfl

/-- The root fields of an entity are added, or one of them is there already. -/
theorem add_cases (h : Compiled x done roots r) {e : Entity} {s : TypeRegistry}
    (hs : Settled x (fun _ => True) s)
    (hserved : ∀ d ∈ done ++ [e], ∀ q ∈ d.demands, Served x s q) (t : EntityTypes) :
    (∃ roots', roots.add e t s = (.ok roots', s) ∧ Compiled x (done ++ [e]) roots' s) ∨
      ∃ f, roots.add e t s = (.error f, s) ∧ Setback x Q (done ++ [e]) f := by
  have hquery : (roots.query ++ e.queryFields t).map FieldDef.name =
      (done ++ [e]).flatMap Entity.queryNames := by
    simp [h.query, e.names_queryFields]
  have hmutation : (roots.mutation ++ e.mutationFields t).map FieldDef.name =
      (done ++ [e]).flatMap Entity.mutationNames := by
    simp [h.mutation, e.names_mutationFields]
  unfold RootFields.add
  rcases addFields_cases h.distinctQuery queryRoot (e.queryFields t) s with
    ⟨hq, hadded⟩ | ⟨hq, f, hadded⟩
  · rw [bind_ok hadded]
    rcases addFields_cases h.distinctMutation mutationRoot (e.mutationFields t) s with
      ⟨hm, hadded'⟩ | ⟨hm, f, hadded'⟩
    · rw [bind_ok hadded']
      exact .inl ⟨_, rfl, ⟨hs, hserved, hquery, hmutation, hq, hm⟩⟩
    · exact .inr ⟨_, bind_error hadded', .mutation (hmutation ▸ hm)⟩
  · exact .inr ⟨_, bind_error hadded, .query hserved (hquery ▸ hq)⟩

/-- **One more entity is compiled, or there is a setback.** -/
theorem addEntity (h : Compiled x done roots r) (hclosed : ∀ q q', Q q → Leads x q q' → Q q')
    {e : Entity} (he : ∀ q ∈ e.demands, Q q) (bound : String → Bool) :
    (∃ roots' s, x.addEntity bound roots e r = (.ok roots', s) ∧
        Compiled x (done ++ [e]) roots' s) ∨
      ∃ f s, x.addEntity bound roots e r = (.error f, s) ∧ Setback x Q (done ++ [e]) f := by
  cases hb : bound e.aliasName with
  | false =>
    refine .inr ⟨.refused (.missingRepository e.aliasName), r, ?_, .unbound⟩
    unfold CompileContext.addEntity
    simp only [hb]
    rfl
  | true =>
    have hserves := entityTypes_serves (P := fun _ => True) (fun _ _ => trivial) hclosed he
      h.toConsistent
    have hends := (entityTypes_agree (x := x) e r).ends
    rw [addEntity_eq hb]
    rcases hrun : x.entityTypes e r with ⟨f | t, s⟩
    · rw [hrun] at hends
      refine .inr ⟨f, s, bind_error hrun, .fault (hserves.error f (by rw [hrun])) fun hf => ?_⟩
      exact hends (congrArg Except.error hf)
    · obtain ⟨hgen, hnew⟩ := hserves.ok t (by rw [hrun])
      have hconsistent := hserves.consistent
      have hwithin := hserves.within
      rw [hrun] at hgen hnew hconsistent hwithin
      -- what was served before stays served, since the registry only grows
      have hserved : ∀ d ∈ done ++ [e], ∀ q ∈ d.demands, Served x s q := by
        intro d hd q hq
        rcases List.mem_append.1 hd with hd | hd
        · exact (h.served d hd q hq).mono hwithin
        · obtain rfl := List.mem_singleton.1 hd
          exact hnew q hq
      rw [bind_ok hrun]
      rcases h.add_cases ⟨hconsistent, hgen.trans h.rest⟩ hserved t with
        ⟨roots', hadded, hdone⟩ | ⟨f, hadded, hf⟩
      · exact .inl ⟨roots', s, hadded, hdone⟩
      · exact .inr ⟨f, s, hadded, hf⟩

/-- **All entities are compiled, or there is a setback at one of them.** -/
theorem addEntities (h : Compiled x done roots r)
    (hclosed : ∀ q q', Q q → Leads x q q' → Q q') {es : List Entity}
    (hes : ∀ e ∈ es, ∀ q ∈ e.demands, Q q) (bound : String → Bool) :
    (∃ roots' s, x.addEntities bound roots es r = (.ok roots', s) ∧
        Compiled x (done ++ es) roots' s) ∨
      ∃ f s, x.addEntities bound roots es r = (.error f, s) ∧
        ∃ es', es' <+: done ++ es ∧ Setback x Q es' f := by
  -- induction on the entities that are left; what is compiled so far is the invariant
  induction es generalizing done roots r with
  | nil =>
    rw [List.append_nil]
    exact .inl ⟨roots, r, rfl, h⟩
  | cons e es ih =>
    obtain ⟨he, hes⟩ := List.forall_mem_cons.1 hes
    rw [CompileContext.addEntities, List.append_cons]
    rcases h.addEntity hclosed he bound with ⟨roots', s, hrun, hdone⟩ | ⟨f, s, hrun, hf⟩
    · rw [bind_ok hrun]
      exact ih hdone hes
    · rw [bind_error hrun]
      exact .inr ⟨f, s, rfl, done ++ [e], List.prefix_append _ es, hf⟩

end Compiled

/-- The catalog is compiled, or there is a setback. -/
theorem addCatalog_cases {x : CompileContext} {Q : Demand → Prop}
    (hclosed : ∀ q q', Q q → Leads x q q' → Q q')
    (hQ : ∀ e ∈ x.catalog.entities, ∀ q ∈ e.demands, Q q) (bound : String → Bool) :
    (∃ roots r, x.addCatalog bound .empty = (.ok roots, r) ∧
        Compiled x x.catalog.entities roots r) ∨
      ∃ f r, x.addCatalog bound .empty = (.error f, r) ∧
        ∃ es, es <+: x.catalog.entities ∧ Setback x Q es f := by
  have hrun := Compiled.empty.addEntities hclosed hQ bound
  rwa [List.nil_append] at hrun

theorem compiled_of_addCatalog {x : CompileContext} {bound : String → Bool} {roots : RootFields}
    {r : TypeRegistry} (h : x.addCatalog bound .empty = (.ok roots, r)) :
    Compiled x x.catalog.entities roots r := by
  rcases addCatalog_cases (x := x) (Q := fun _ => True) (fun _ _ _ _ => trivial)
    (fun _ _ _ _ => trivial) bound with ⟨roots', r', hrun, hdone⟩ | ⟨f, r', hrun, -⟩
  · obtain ⟨hroots, rfl⟩ := Prod.mk.inj (h.symm.trans hrun)
    rw [Except.ok.inj hroots]
    exact hdone
  · have hanswer := congrArg Prod.fst (h.symm.trans hrun)
    cases hanswer

/-! ### Assembled schemas -/

namespace Schema

variable {x : CompileContext} {bound : String → Bool} {settings : Settings}

/-- A schema is assembled from a catalog that has been compiled. -/
theorem build_ok {s : Schema} (h : build x bound settings = .ok s) :
    ∃ roots r, x.addCatalog bound .empty = (.ok roots, r) ∧ checkNames r = .ok () ∧
      s = (assemble settings r roots).published := by
  unfold build at h
  split at h
  · cases h
  · rcases hrun : x.addCatalog bound .empty with ⟨f | roots, r⟩
    · simp only [hrun] at h
      cases h
    · simp only [hrun] at h
      cases hnames : checkNames r with
      | error e =>
        rw [hnames] at h
        cases h
      | ok u =>
        rw [hnames] at h
        cases hcheck : (assemble settings r roots).check with
        | error e =>
          rw [hcheck] at h
          cases h
        | ok u =>
          rw [hcheck] at h
          exact ⟨roots, r, rfl, hnames, (Except.ok.inj h).symm⟩

/-- Assembling that stops reports an error, or the compilation of the catalog has stopped. -/
theorem build_error {f : CompileFailure} (h : build x bound settings = .error f) :
    (∃ e, f = .refused e) ∨ ∃ r, x.addCatalog bound .empty = (.error f, r) := by
  unfold build at h
  split at h
  · exact .inl ⟨_, (Except.error.inj h).symm⟩
  · rcases hrun : x.addCatalog bound .empty with ⟨f' | roots, r⟩
    · simp only [hrun] at h
      obtain rfl : f' = f := Except.error.inj h
      exact .inr ⟨r, rfl⟩
    · simp only [hrun] at h
      split at h
      · cases h
      · exact .inl ⟨_, (Except.error.inj h).symm⟩

end Schema

end EntityGraph
