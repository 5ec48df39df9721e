import EntityGraph.Proofs.Compile.Chains
import EntityGraph.Proofs.Compile.Session

/-!
How calls end. Where no property map has a key twice, the types that are compiled from it do not
either, so that a demand for an entity or for a property is answered or refused: it does not end
in a repeated field, and the recursion behind it is over before its chains reach their bound.
-/

namespace EntityGraph

/-! ### Keys that are not repeated -/

namespace PropertyType

theorem distinctFields_iff {fs : List (String × PropertyType)} :
    DistinctFields fs ↔ ∀ f ∈ fs, f.2.Distinct := by
  induction fs with
  | nil => simp [DistinctFields]
  | cons f fs ih => rw [DistinctFields, ih, List.forall_mem_cons]

end PropertyType

/-- No key is repeated in the entities of the catalog, and projections repeat none in the types
of the fields that they plan for such entities. -/
structure CompileContext.WellKeyed (x : CompileContext) : Prop where
  entities : ∀ e ∈ x.catalog.entities, e.Distinct
  projections : ∀ a p, x.projections.get? a = some p →
    ∀ e, e.Distinct → ∀ f ∈ p.plan e, f.2.type.Distinct

/-- The demand is for an entity or a property in which no key is repeated. -/
def Demand.WellKeyed : Demand → Prop
  | .entity _ e => e.Distinct
  | .property _ _ t => t.Distinct
  | .filter _ | .sort _ => False

section Keys

variable {x : CompileContext} {u : TypeUse} {e : Entity} {q q' : Demand} {b : Blueprint}

theorem distinct_persistedFields (he : e.Distinct) :
    Fields.Distinct e.persistedFields ∧ ∀ f ∈ e.persistedFields, f.2.type.Distinct := by
  refine ⟨?_, fun f hf => ?_⟩
  · have hkeys : Fields.keys e.persistedFields = Fields.keys e.properties := by
      simp [Fields.keys, Entity.persistedFields, Entity.propertyTypes, Function.comp_def]
    rw [Fields.Distinct, hkeys]
    exact he.1
  · obtain ⟨g, hg, rfl⟩ := List.mem_map.1 hf
    obtain ⟨p, hp, rfl⟩ := List.mem_map.1 hg
    exact he.2 p hp

/-- The fields of an entity have distinct keys, and so have the shapes in them. -/
theorem distinct_fieldsOf (hx : x.WellKeyed) (he : e.Distinct) :
    Fields.Distinct (x.fieldsOf u e) ∧ ∀ f ∈ x.fieldsOf u e, f.2.type.Distinct := by
  unfold CompileContext.fieldsOf
  split
  · split
    · rename_i p _ hp
      refine ⟨Fields.ofList_distinct _, fun f hf => ?_⟩
      exact hx.projections _ p hp e he f (Fields.mem_of_mem_ofList hf)
    · exact distinct_persistedFields he
  · exact distinct_persistedFields he

theorem Demand.WellKeyed.leads (hx : x.WellKeyed) (h : q.WellKeyed) (hl : Leads x q q') :
    q'.WellKeyed := by
  cases hl with
  | field hf _ => exact (distinct_fieldsOf hx h).2 _ hf
  | member hm => exact PropertyType.distinctFields_iff.1 h.2 _ hm
  | item => exact h
  | target ha => exact hx.entities _ (Catalog.mem_of_get? ha)

/-- The type of such a demand has no field twice. -/
theorem Demand.WellKeyed.nodup (hx : x.WellKeyed) (h : q.WellKeyed)
    (hb : q.blueprint? x = some b) : ((b.signature.outline b.name).map Prod.fst).Nodup := by
  cases Demand.builds_of_blueprint hb with
  | entity u e =>
    rw [(HasMembers.entity x u e).outline]
    refine List.nodup_cons.2 ⟨fun hid => ?_, ?_⟩
    · obtain ⟨m, hm, hname⟩ := List.mem_map.1 hid
      have hne : m.1 ≠ idField := by simpa using (List.mem_filter.1 hm).2
      exact hne hname
    · exact (distinct_fieldsOf hx h).1.sublist (List.filter_sublist.map _)
  | shape u name fs =>
    have hnames : ((u.shapeSignature fs).outline name).map Prod.fst = Fields.keys fs := by
      simp [u.outline_shapeSignature, TypeUse.outlineOf, Compile.shapeMembers, Fields.keys,
        Function.comp_def]
    rw [hnames]
    exact h.1
  | filter | sort => exact absurd h (by simp [WellKeyed])

end Keys

/-! ### Answers and refusals -/

/-- A demand in which no key is repeated is answered or refused, at every registry that any
demands leave behind. -/
theorem answer_ok_or_refused {x : CompileContext} (hx : x.WellKeyed) (qs : List Demand)
    {q : Demand} (hq : q.WellKeyed) :
    (∃ t, (x.answer q (x.session qs .empty).2).1 = .ok t) ∨
      ∃ e, (x.answer q (x.session qs .empty).2).1 = .error (.refused e) := by
  have hr : Consistent x (fun _ => True) (x.session qs .empty).2 :=
    (session_attended (fun _ _ _ _ => trivial) (fun _ _ => trivial) .empty).consistent
  have hserves := answer_serves (Q := Demand.WellKeyed) (fun _ _ => trivial)
    (fun _ _ h hl => h.leads hx hl) hq hr
  cases ha : (x.answer q (x.session qs .empty).2).1 with
  | ok t => exact .inl ⟨t, rfl⟩
  | error e =>
    refine .inr ?_
    cases hserves.error e ha with
    | chain => exact absurd ha (x.answer_agree q _).ends
    | repeated hq' hb hrepeated => exact absurd (hq'.nodup hx hb) hrepeated
    | invalid | vacant | unknown | conflict => exact ⟨_, rfl⟩

/-- **Every compilation ends.** There is no endless chain of calls, no chain enters the fields of
one type twice, and every name that it enters was free where it started. The calls of the relation
are all that a call depends on, and compiling an entity is the one solution of the equation of the
recursion. No call stops for the length of a chain; where no property map has a key twice, every
demand for an entity or a property is answered or refused at every registry that can be reached. -/
theorem compilation_ends (x : CompileContext) :
    (WellFounded fun q p => Invokes x p q) ∧
    (∀ chain : List (Demand × TypeRegistry), chain.IsChain (Invokes x) →
      (chain.filterMap entered?).Nodup ∧
        ∀ p ∈ chain.head?, ∀ n ∈ chain.filterMap entered?, p.2.contains n = false) ∧
    (∀ u e r (enter : Entity → Compile String),
      (∀ e' s, Relation.TransGen (Invokes x) (.entity u e, r) (.entity u e', s) →
        enter e' s = x.entityType u e' s) →
      x.enterEntity u enter e r = x.entityType u e r) ∧
    (∀ u (enter : Entity → Compile String),
      (∀ e, enter e = x.enterEntity u enter e) ↔ enter = x.entityType u) ∧
    (∀ q r, (x.answer q r).1 ≠ .error .chainTooLong) ∧
    (x.WellKeyed → ∀ qs q, q.WellKeyed →
      (∃ t, (x.answer q (x.session qs .empty).2).1 = .ok t) ∨
        ∃ e, (x.answer q (x.session qs .empty).2).1 = .error (.refused e)) := by
  refine ⟨Invokes.wellFounded x, fun chain h => ?_, fun u e r enter h => Invokes.enterEntity_eq h,
    fun u enter => ⟨x.entityType_unique u, ?_⟩, fun q r => (x.answer_agree q r).ends,
    fun hx qs q hq => answer_ok_or_refused hx qs hq⟩
  · refine ⟨Invokes.entered_nodup h, fun p hp n hn => ?_⟩
    obtain ⟨rest, rfl⟩ := List.head?_eq_some_iff.1 hp
    exact Invokes.free_of_chain h hn
  · rintro rfl e
    exact x.entityType_eq u e

/-- The entities of the archive repeat no key, and its projection passes types on. -/
theorem archive_wellKeyed : archiveContext.WellKeyed where
  entities := by
    intro e he
    rcases List.mem_pair.1 he with rfl | rfl <;>
      simp [folderEntity, fileEntity, Entity.bare, Entity.Distinct, Property.plain,
        PropertyType.Distinct, PropertyType.distinctFields_iff, Fields.Distinct, Fields.keys]
  projections := by
    intro a p hp e he f hf
    obtain ⟨-, rfl⟩ := Prod.mk.inj (List.mem_singleton.1 (Fields.mem_of_get? hp))
    rcases List.mem_append.1 hf with hf | hf
    · exact (distinct_persistedFields he).2 f hf
    · obtain rfl := List.mem_singleton.1 hf
      trivial

theorem compilation_ends_archive :
    archiveContext.WellKeyed ∧ (Demand.entity .input folderEntity).WellKeyed ∧
      ((∃ t, (archiveContext.answer (.entity .input folderEntity)
          (archiveContext.session [.filter fileEntity] .empty).2).1 = .ok t) ∨
        ∃ e, (archiveContext.answer (.entity .input folderEntity)
          (archiveContext.session [.filter fileEntity] .empty).2).1 = .error (.refused e)) := by
  have hkeyed : (Demand.entity .input folderEntity).WellKeyed :=
    archive_wellKeyed.entities _ List.mem_cons_self
  obtain ⟨-, -, -, -, -, hends⟩ := compilation_ends archiveContext
  exact ⟨archive_wellKeyed, hkeyed, hends archive_wellKeyed _ _ hkeyed⟩

end EntityGraph
