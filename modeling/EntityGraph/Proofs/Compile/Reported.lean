import EntityGraph.Proofs.Compile.Checks

/-!
The names that a run reports as invalid. A run compiles types of the entities of a catalog, for
the uses that a schema has. The names of the types that it comes to are derived from aliases and
keys, and a key is checked before a name is derived from it; so what is reported is a key that is
written in the catalog or in a projection, just as it is written there.
-/

namespace EntityGraph

/-! ### Keys -/

namespace PropertyType

/-- The keys of a shape. -/
def shapeKeys : PropertyType → List String
  | .shape fs => Fields.keys fs
  | .scalar _ | .array _ | .reference _ => []

/-- The keys of the shapes in a type, at any depth. -/
def keys (t : PropertyType) : List String := t.preorder.flatMap shapeKeys

variable {fs : List (String × PropertyType)} {f : String × PropertyType} {k : String}

theorem mem_keys_array {t : PropertyType} (h : k ∈ t.keys) : k ∈ (array t).keys :=
  List.mem_append_right _ h

theorem mem_keys_shape (hf : f ∈ fs) : f.1 ∈ (shape fs).keys :=
  List.mem_append_left _ (List.mem_map_of_mem hf)

theorem mem_keys_shape_of_mem (hf : f ∈ fs) (h : k ∈ f.2.keys) : k ∈ (shape fs).keys := by
  obtain ⟨t, ht, hk⟩ := List.mem_flatMap.1 h
  exact List.mem_append_right _ (List.mem_flatMap.2 ⟨t, mem_fieldsPreorder hf ht, hk⟩)

end PropertyType

/-- The uses of the types of entities. -/
def TypeUse.ofEntities : List TypeUse := [.output .publicType, .output .entityType, .input]

namespace CompileContext

variable (x : CompileContext)

/-- The fields of an entity: its own, and those that its projection gives it. -/
def fieldLists (e : Entity) : List (List (String × ProjectedField)) :=
  e.persistedFields :: (x.projections.get? e.aliasName).toList.map fun p => p.fields e

/-- The keys that occur in the catalog or in a projection: those of properties, and those of
shapes in their types. -/
def keys : List String :=
  x.catalog.entities.flatMap fun e => (x.fieldLists e).flatten.flatMap fun f => f.1 :: f.2.type.keys

/-- **The derived names**: an alias with the ending of a use, and a derived name followed by a key
that is a valid name. -/
inductive Derived : String → Prop
  | entity {u : TypeUse} {e : Entity} :
      u ∈ TypeUse.ofEntities → e ∈ x.catalog.entities → Derived (u.typeName e.aliasName)
  | key {name k : String} :
      Derived name → k ∈ x.keys → Name.Valid k = true → Derived (name ++ k)

variable {x} {e : Entity} {k : String} {f : ProjectedField}

theorem fieldsOf_mem_fieldLists (u : TypeUse) (e : Entity) : x.fieldsOf u e ∈ x.fieldLists e := by
  unfold fieldsOf
  split
  · split
    · rename_i p _ hp
      have hprojected : p ∈ (x.projections.get? e.aliasName).toList := Option.mem_toList.2 hp
      exact List.mem_cons_of_mem _ (List.mem_map_of_mem hprojected)
    · exact List.mem_cons_self
  · exact List.mem_cons_self

/-- The key of a field of an entity occurs, and so do those in its type. -/
theorem mem_keys_of_mem_fieldsOf {u : TypeUse} (he : e ∈ x.catalog.entities)
    (hf : (k, f) ∈ x.fieldsOf u e) {k' : String} (hk : k' ∈ k :: f.type.keys) : k' ∈ x.keys := by
  have hmem : (k, f) ∈ (x.fieldLists e).flatten :=
    List.mem_flatten.2 ⟨_, fieldsOf_mem_fieldLists u e, hf⟩
  exact List.mem_flatMap.2 ⟨e, he, List.mem_flatMap.2 ⟨_, hmem, hk⟩⟩

/-- **Derived names are valid** where aliases are. -/
theorem Derived.valid (haliases : ∀ a ∈ x.catalog.aliases, Name.Valid a = true) {n : String}
    (h : x.Derived n) : Name.Valid n = true := by
  induction h with
  | @entity u e hu he =>
    have halias := haliases e.aliasName (List.mem_map_of_mem he)
    have hpublic : OutputOptions.publicType.typeName e.aliasName = e.aliasName := by
      simp [OutputOptions.typeName, OutputOptions.publicType]
    have hentity : OutputOptions.entityType.typeName e.aliasName = e.aliasName ++ "Entity" := by
      simp [OutputOptions.typeName, OutputOptions.entityType]
    simp only [TypeUse.ofEntities, List.mem_cons, List.not_mem_nil, or_false] at hu
    rcases hu with rfl | rfl | rfl
    · rw [TypeUse.typeName, hpublic]
      exact halias
    · rw [TypeUse.typeName, hentity]
      exact Name.valid_append halias (by decide)
    · exact Name.valid_append halias (by decide)
  | key _ _ hk ih => exact Name.valid_append ih (Name.all_isRest_of_valid hk)

end CompileContext

/-! ### The demands of a run -/

/-- **The demands that a run comes to**: for types of entities of the catalog, and for properties
under a derived name, all of whose keys occur. -/
inductive Demand.Placed (x : CompileContext) : Demand → Prop
  | entity {u : TypeUse} {e : Entity} :
      u ∈ TypeUse.ofEntities → e ∈ x.catalog.entities → Placed x (.entity u e)
  | property {u : TypeUse} {name : String} {t : PropertyType} :
      u ∈ TypeUse.ofEntities → x.Derived name → (∀ k ∈ t.keys, k ∈ x.keys) →
      Placed x (.property u name t)
  | filter (e : Entity) : Placed x (.filter e)
  | sort (e : Entity) : Placed x (.sort e)

section Run

variable {x : CompileContext} {p q : Demand × TypeRegistry} {qs : List Demand} {n : String}
  {r : TypeRegistry}

theorem Demand.placed_of_mem {q : Demand} (h : q ∈ allDemands x.catalog.entities) :
    q.Placed x := by
  obtain ⟨e, he, hq⟩ := List.mem_flatMap.1 h
  simp only [Entity.demands, List.mem_cons, List.not_mem_nil, or_false] at hq
  rcases hq with rfl | rfl | rfl | rfl | rfl
  · exact .entity (by simp [TypeUse.ofEntities]) he
  · exact .entity (by simp [TypeUse.ofEntities]) he
  · exact .filter e
  · exact .sort e
  · exact .entity (by simp [TypeUse.ofEntities]) he

/-- A call makes calls of the kind that it is itself. -/
theorem Demand.Placed.invokes (h : p.1.Placed x) (hq : Invokes x p q) : q.1.Placed x := by
  cases hq with
  | @field u e _ _ k f _ _ _ _ _ hfields _ _ hkey =>
    cases h with
    | entity hu he =>
      have hf : (k, f) ∈ x.fieldsOf u e := hfields ▸ List.mem_append_right _ List.mem_cons_self
      have hkeys : ∀ k' ∈ k :: f.type.keys, k' ∈ x.keys := fun k' =>
        CompileContext.mem_keys_of_mem_fieldsOf he hf
      obtain ⟨hk, hinner⟩ := List.forall_mem_cons.1 hkeys
      exact .property hu (.key (.entity hu he) hk hkey) hinner
  | @member u name k before after t _ _ _ _ _ _ hkey =>
    cases h with
    | property hu hname hkeys =>
      have hf : (k, t) ∈ before ++ (k, t) :: after :=
        List.mem_append_right _ List.mem_cons_self
      have hk : k ∈ x.keys := hkeys k (PropertyType.mem_keys_shape hf)
      exact .property hu (.key hname hk hkey) fun k' hk' =>
        hkeys k' (PropertyType.mem_keys_shape_of_mem hf hk')
  | item =>
    cases h with
    | property hu hname hkeys =>
      exact .property hu hname fun k hk => hkeys k (PropertyType.mem_keys_array hk)
  | target ha =>
    cases h with
    | property hu hname hkeys => exact .entity hu (Catalog.mem_of_get? ha)

/-- **All calls behind a call** are of the kind that it is. -/
theorem Demand.Placed.calls (h : p.1.Placed x) (hq : q ∈ x.calls p) : q.1.Placed x := by
  have hreach := CompileContext.mem_calls_iff.1 hq
  clear hq
  induction hreach with
  | refl => exact h
  | tail _ hinvokes ih => exact ih.invokes hinvokes

/-- **All calls of a run** are for demands that a run comes to. -/
theorem placed_of_mem_timeline (hqs : ∀ q ∈ qs, q ∈ allDemands x.catalog.entities)
    (hp : p ∈ x.timeline qs r) : p.1.Placed x := by
  obtain ⟨c, hc, hp⟩ := List.mem_flatMap.1 hp
  obtain ⟨before, d, after, rfl, rfl⟩ := CompileContext.mem_sessionCalls_iff.1 hc
  have hd : d ∈ allDemands x.catalog.entities :=
    hqs d (List.mem_append_right _ List.mem_cons_self)
  have hplaced : d.Placed x := Demand.placed_of_mem hd
  exact hplaced.calls hp

/-- A call checks a derived name for its type. -/
theorem Demand.Placed.derived (h : p.1.Placed x) (hcheck : Checks x p .typeName n) :
    x.Derived n := by
  cases hcheck with
  | typeName hgen =>
    cases hgen with
    | entity =>
      cases h with
      | entity hu he => exact .entity hu he
    | shape =>
      cases h with
      | property _ hname _ => exact hname

/-- The members that a call comes to have keys that occur. -/
theorem Generates.mem_keys {q : Demand} {u : TypeUse} {b : Blueprint} {before : List FieldDef}
    {ms : List (String × ProjectedField)} (h : Generates x q u b before ms) (hq : q.Placed x)
    {m : String × ProjectedField} (hm : m ∈ ms) : m.1 ∈ x.keys := by
  cases h with
  | entity u e =>
    cases hq with
    | entity _ he =>
      have hf : m ∈ x.fieldsOf u e := (List.mem_filter.1 hm).1
      exact CompileContext.mem_keys_of_mem_fieldsOf he hf List.mem_cons_self
  | shape u name hfs =>
    cases hq with
    | property _ _ hkeys =>
      obtain ⟨f, hf, rfl⟩ := List.mem_map.1 hm
      exact hkeys f.1 (PropertyType.mem_keys_shape hf)

/-- A call checks keys that occur. -/
theorem Demand.Placed.mem_keys (h : p.1.Placed x) (hcheck : Checks x p .key n) : n ∈ x.keys := by
  cases hcheck with
  | key hgen => exact hgen.mem_keys h (List.mem_append_right _ List.mem_cons_self)

/-- **A call is refused for a key**, since the names of types that are checked behind it are
valid. -/
theorem Demand.Placed.checks_of_refusedFor (h : p.1.Placed x)
    (haliases : ∀ a ∈ x.catalog.aliases, Name.Valid a = true) (hrefused : RefusedFor x n p) :
    n ∈ x.keys ∧ Name.Valid n = false ∧ ∃ c ∈ x.calls p, Checks x c .key n := by
  obtain ⟨hinvalid, c, hc, role, hcheck⟩ := refusedFor_iff.1 hrefused
  have hplaced : c.1.Placed x := h.calls hc
  cases role with
  | typeName =>
    have hvalid := (hplaced.derived hcheck).valid haliases
    rw [hinvalid] at hvalid
    cases hvalid
  | key => exact ⟨hplaced.mem_keys hcheck, hinvalid, c, hc, hcheck⟩

end Run

/-! ### Reports of a run -/

/-- The answers of a session are those of its calls. -/
theorem CompileContext.session_answers (x : CompileContext) (qs : List Demand) (r : TypeRegistry) :
    (x.session qs r).1 = (x.sessionCalls qs r).map fun p => (x.answer p.1 p.2).1 := by
  induction qs generalizing r with
  | nil => rfl
  | cons q qs ih => rw [session_cons, sessionCalls, List.map_cons, ih]

/-- **A run reports keys, and no derived names.** Where the aliases of a catalog are valid, every
name of a type that a call of the run checks is derived, and matches the pattern of names. If a
call is refused for its name, or an answer of the run says so, then this is a key of the catalog or
of a projection that does not match the pattern; it is checked as a key by that call or behind it,
and is not a derived name. -/
theorem reported_name_is_key (x : CompileContext)
    (haliases : ∀ a ∈ x.catalog.aliases, Name.Valid a = true) (qs : List Demand)
    (hqs : ∀ q ∈ qs, q ∈ allDemands x.catalog.entities) (r : TypeRegistry) :
    (∀ p ∈ x.timeline qs r, ∀ n, Checks x p .typeName n →
      x.Derived n ∧ n.toList ∈ Name.pattern) ∧
    (∀ p ∈ x.timeline qs r, ∀ n, RefusedFor x n p →
      n ∈ x.keys ∧ n.toList ∉ Name.pattern ∧ ¬ x.Derived n ∧
        ∃ c ∈ x.calls p, Checks x c .key n) ∧
    ∀ n, .error (.refused (.invalidName n)) ∈ (x.session qs r).1 →
      n ∈ x.keys ∧ n.toList ∉ Name.pattern ∧ ¬ x.Derived n ∧
        ∃ c ∈ x.timeline qs r, Checks x c .key n := by
  have hderived : ∀ n, x.Derived n → n.toList ∈ Name.pattern := fun n h =>
    Name.valid_iff_mem_pattern.1 (h.valid haliases)
  have hreported : ∀ p ∈ x.timeline qs r, ∀ n, RefusedFor x n p →
      n ∈ x.keys ∧ n.toList ∉ Name.pattern ∧ ¬ x.Derived n ∧
        ∃ c ∈ x.calls p, Checks x c .key n := by
    intro p hp n hrefused
    obtain ⟨hkey, hinvalid, hcheck⟩ :=
      (placed_of_mem_timeline hqs hp).checks_of_refusedFor haliases hrefused
    have hpattern : n.toList ∉ Name.pattern := by
      rw [← Name.valid_iff_mem_pattern, hinvalid]
      exact Bool.false_ne_true
    exact ⟨hkey, hpattern, fun h => hpattern (hderived n h), hcheck⟩
  refine ⟨fun p hp n hcheck => ?_, hreported, fun n hanswer => ?_⟩
  · have h := (placed_of_mem_timeline hqs hp).derived hcheck
    exact ⟨h, hderived n h⟩
  · rw [x.session_answers] at hanswer
    obtain ⟨p, hp, hrefused⟩ := List.mem_map.1 hanswer
    have hmem : p ∈ x.timeline qs r := (x.sessionCalls_sublist qs r).mem hp
    obtain ⟨hkey, hpattern, hnot, c, hc, hcheck⟩ := hreported p hmem n hrefused
    exact ⟨hkey, hpattern, hnot, c, List.mem_flatMap.2 ⟨p, hp, hc⟩, hcheck⟩

/-- Posters, whose image has a key that is not a name, as has what is shown of them in public. -/
def posterContext : CompileContext where
  catalog := ⟨[{ Entity.bare "poster" with
    properties := [("image", .plain (.shape
      [("url", .scalar .string), ("alt-text", .scalar .string)]))] }]⟩
  projections := ProjectionSet.empty.register
    ⟨"poster", fun e => ("2nd title", .plain (.scalar .string)) :: e.persistedFields⟩

/-- The public type is refused for the key of the projection, and the others for that of the
image. -/
theorem reported_name_is_key_poster :
    let qs := allDemands posterContext.catalog.entities
    (∀ a ∈ posterContext.catalog.aliases, Name.Valid a = true) ∧
      (posterContext.session qs .empty).1 =
        [.error (.refused (.invalidName "2nd title")),
          .error (.refused (.invalidName "alt-text")), .ok (.named "posterEntityFilter"),
          .ok (.named "posterEntitySort"), .error (.refused (.invalidName "alt-text"))] ∧
      ∀ n ∈ ["2nd title", "alt-text"], n ∈ posterContext.keys ∧ n.toList ∉ Name.pattern ∧
        ¬ posterContext.Derived n ∧
          ∃ c ∈ posterContext.timeline qs .empty, Checks posterContext c .key n := by
  intro qs
  have haliases : ∀ a ∈ posterContext.catalog.aliases, Name.Valid a = true := by decide
  have hanswers : (posterContext.session qs .empty).1 =
      [.error (.refused (.invalidName "2nd title")),
        .error (.refused (.invalidName "alt-text")), .ok (.named "posterEntityFilter"),
        .ok (.named "posterEntitySort"), .error (.refused (.invalidName "alt-text"))] := by
    decide +kernel
  obtain ⟨-, -, hreported⟩ := reported_name_is_key posterContext haliases qs (fun _ h => h) .empty
  refine ⟨haliases, hanswers, List.forall_mem_cons.2 ⟨hreported _ ?_, ?_⟩⟩
  · rw [hanswers]
    exact List.mem_cons_self
  · refine List.forall_mem_singleton.2 (hreported _ ?_)
    rw [hanswers]
    exact List.mem_cons_of_mem _ List.mem_cons_self

end EntityGraph
