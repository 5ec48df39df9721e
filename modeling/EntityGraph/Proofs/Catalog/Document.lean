import EntityGraph.Proofs.Catalog.References

/-!
Which documents become catalogs, what the catalog holds, and which error the others get. The
judgement has three stages, and each of them goes through the document in order: aliases and
descriptors, an alias before the descriptors below it; then aliases that are repeated; then
references that name no alias. A defect of one stage hides all defects of later stages.
-/

namespace EntityGraph

/-! ### Entities -/

namespace EntityDocument

/-- The property is the one that the entry of the document describes. -/
structure Denotes (p : String × Json) (q : String × Property) : Prop where
  name : q.1 = p.1
  type : PropertyType.ofDescriptor p.2 = .ok q.2.type
  displayName : q.2.displayName = (p.2.get? "display_name").bind Json.asString?
  editor : q.2.editor = (p.2.get? "editor").bind Json.asString?
  default : q.2.default = p.2.get? "default"

/-- The entity is the one that the document describes, with its properties in order. -/
structure Reads (d : EntityDocument) (e : Entity) : Prop where
  aliasName : e.aliasName = d.aliasName
  displayName : e.displayName = d.displayName
  icon : e.icon = d.icon
  maxOne : e.maxOne = d.maxOne
  properties : List.Forall₂ Denotes d.properties e.properties

/-- The alias is a name, and all descriptors are accepted. -/
structure Readable (d : EntityDocument) : Prop where
  valid : Name.Valid d.aliasName = true
  accepted : ∀ p ∈ d.properties, ∃ t, PropertyType.ofDescriptor p.2 = .ok t

/-- The first offence of an entity: its alias, or else the first descriptor that is refused. -/
inductive Failure (d : EntityDocument) : DefinitionError → Prop where
  | aliasName (invalid : ¬ Name.Valid d.aliasName = true) : Failure d (.invalidAlias d.aliasName)
  | unknownType {before after : List (String × Json)} {name tag : String} {descriptor : Json}
      (valid : Name.Valid d.aliasName = true)
      (split : d.properties = before ++ (name, descriptor) :: after)
      (accepted : ∀ p ∈ before, ∃ t, PropertyType.ofDescriptor p.2 = .ok t)
      (refused : PropertyType.ofDescriptor descriptor = .error (.unknownType tag)) :
      Failure d (.unknownPropertyType d.aliasName name tag)
  | malformed {before after : List (String × Json)} {name : String} {descriptor : Json}
      {path : List String} {fault : DescriptorFault}
      (valid : Name.Valid d.aliasName = true)
      (split : d.properties = before ++ (name, descriptor) :: after)
      (accepted : ∀ p ∈ before, ∃ t, PropertyType.ofDescriptor p.2 = .ok t)
      (refused : PropertyType.ofDescriptor descriptor = .error (.malformed path fault)) :
      Failure d (.malformedProperty d.aliasName name (DescriptorError.place path fault))

/-- Reads one property. -/
def readProperty (aliasName : String) (p : String × Json) :
    Except DefinitionError (String × Property) :=
  match Property.ofDescriptor p.2 with
  | .error e => .error (e.at aliasName p.1)
  | .ok q => .ok (p.1, q)

theorem readProperties_eq_mapM (aliasName : String) (ps : List (String × Json)) :
    readProperties aliasName ps = ps.mapM (readProperty aliasName) := by
  induction ps with
  | nil => rfl
  | cons p ps ih =>
    obtain ⟨name, descriptor⟩ := p
    rw [readProperties, List.mapM_cons, readProperty]
    cases Property.ofDescriptor descriptor with
    | error e => rfl
    | ok q =>
      rw [ih]
      cases ps.mapM (readProperty aliasName) <;> rfl

variable {aliasName : String} {p : String × Json} {q : String × Property} {d : EntityDocument}
  {e : Entity} {err : DefinitionError}

theorem readProperty_eq_ok_iff : readProperty aliasName p = .ok q ↔ Denotes p q := by
  unfold readProperty Property.ofDescriptor
  cases ht : PropertyType.ofDescriptor p.2 with
  | error e =>
    constructor
    · intro h
      cases h
    · intro h
      cases ht.symm.trans h.type
  | ok t =>
    constructor
    · rintro ⟨⟩
      exact ⟨rfl, ht, rfl, rfl, rfl⟩
    · intro h
      obtain ⟨name, ⟨type, displayName, editor, default⟩⟩ := q
      obtain rfl : t = type := Except.ok.inj (ht.symm.trans h.type)
      obtain ⟨rfl, -, rfl, rfl, rfl⟩ := h
      rfl

theorem readProperty_eq_error_iff :
    readProperty aliasName p = .error err ↔
      ∃ e, PropertyType.ofDescriptor p.2 = .error e ∧ err = e.at aliasName p.1 := by
  unfold readProperty Property.ofDescriptor
  cases PropertyType.ofDescriptor p.2 <;> simp [Except.map, eq_comm]

theorem readProperty_isOk_iff :
    (∃ q, readProperty aliasName p = .ok q) ↔ ∃ t, PropertyType.ofDescriptor p.2 = .ok t := by
  unfold readProperty Property.ofDescriptor
  cases PropertyType.ofDescriptor p.2 <;> simp [Except.map]

theorem create_eq_ok_iff : Entity.create aliasName = .ok e ↔
    Name.Valid aliasName = true ∧ e = .bare aliasName := by
  unfold Entity.create
  by_cases hvalid : Name.Valid aliasName = true <;> simp [hvalid, @eq_comm _ e]

theorem create_eq_error_iff : Entity.create aliasName = .error err ↔
    ¬ Name.Valid aliasName = true ∧ err = .invalidAlias aliasName := by
  unfold Entity.create
  by_cases hvalid : Name.Valid aliasName = true <;> simp [hvalid, @eq_comm _ err]

/-- An entity is read just when it is readable, and then it is what the document describes. -/
theorem toEntity_eq_ok_iff : d.toEntity = .ok e ↔ Name.Valid d.aliasName = true ∧ d.Reads e := by
  unfold toEntity
  simp only [exceptBind_eq_ok_iff, create_eq_ok_iff, readProperties_eq_mapM, mapM_eq_ok_iff,
    readProperty_eq_ok_iff, pure, Except.pure, Except.ok.injEq]
  constructor
  · rintro ⟨_, ⟨hvalid, rfl⟩, ps, hps, rfl⟩
    exact ⟨hvalid, rfl, rfl, rfl, rfl, hps⟩
  · rintro ⟨hvalid, h⟩
    obtain ⟨aliasName, displayName, icon, maxOne, properties⟩ := e
    obtain ⟨rfl, rfl, rfl, rfl, hps⟩ := h
    exact ⟨_, ⟨hvalid, rfl⟩, properties, hps, rfl⟩

theorem toEntity_isOk_iff : (∃ e, d.toEntity = .ok e) ↔ d.Readable := by
  have hprops : (∃ ps, readProperties d.aliasName d.properties = .ok ps) ↔
      ∀ p ∈ d.properties, ∃ t, PropertyType.ofDescriptor p.2 = .ok t := by
    simp only [readProperties_eq_mapM, mapM_isOk_iff, readProperty_isOk_iff]
  constructor
  · rintro ⟨e, h⟩
    obtain ⟨hvalid, hreads⟩ := toEntity_eq_ok_iff.1 h
    refine ⟨hvalid, hprops.1 ⟨e.properties, ?_⟩⟩
    rw [readProperties_eq_mapM, mapM_eq_ok_iff]
    exact hreads.properties.imp fun _ _ => readProperty_eq_ok_iff.2
  · rintro ⟨hvalid, haccepted⟩
    obtain ⟨ps, hps⟩ := hprops.2 haccepted
    unfold toEntity
    rw [create_eq_ok_iff.2 ⟨hvalid, rfl⟩, hps]
    exact ⟨_, rfl⟩

/-- An entity is refused for its first offence. -/
theorem toEntity_eq_error_iff : d.toEntity = .error err ↔ d.Failure err := by
  unfold toEntity
  simp only [exceptBind_eq_error_iff, create_eq_ok_iff, create_eq_error_iff,
    readProperties_eq_mapM, mapM_eq_error_iff, FirstRefused, readProperty_isOk_iff,
    readProperty_eq_error_iff, pure, Except.pure, reduceCtorEq, and_false, exists_false, or_false]
  constructor
  · rintro (⟨hinvalid, rfl⟩ | ⟨_, ⟨hvalid, -⟩, before, p, after, hsplit, hbefore, e, he, rfl⟩)
    · exact .aliasName hinvalid
    · cases e with
      | unknownType tag => exact .unknownType hvalid hsplit hbefore he
      | malformed path fault => exact .malformed hvalid hsplit hbefore he
  · rintro (hinvalid | ⟨hvalid, hsplit, hbefore, he⟩ | ⟨hvalid, hsplit, hbefore, he⟩)
    · exact .inl ⟨hinvalid, rfl⟩
    · exact .inr ⟨_, ⟨hvalid, rfl⟩, _, _, _, hsplit, hbefore, _, he, rfl⟩
    · exact .inr ⟨_, ⟨hvalid, rfl⟩, _, _, _, hsplit, hbefore, _, he, rfl⟩

end EntityDocument

/-! ### References -/

/-- The references of a property with the alias and the name it stands under, in preorder. -/
def EntityDocument.propertyOccurrences (aliasName : String) (p : String × Json) :
    List (String × String × String) :=
  match PropertyType.ofDescriptor p.2 with
  | .ok t => (t.preorder.filterMap PropertyType.target?).map fun target => (aliasName, p.1, target)
  | .error _ => []

/-- The references of an entity, property by property. -/
def EntityDocument.occurrences (d : EntityDocument) : List (String × String × String) :=
  d.properties.flatMap (propertyOccurrences d.aliasName)

namespace CatalogDocument

/-- The aliases, in order. -/
def aliases (d : CatalogDocument) : List String := d.entities.map EntityDocument.aliasName

/-- The references, entity by entity. -/
def occurrences (d : CatalogDocument) : List (String × String × String) :=
  d.entities.flatMap EntityDocument.occurrences

variable {d : CatalogDocument} {c : Catalog} {es : List Entity} {err : DefinitionError}

theorem aliases_of_reads {ds : List EntityDocument}
    (h : List.Forall₂ EntityDocument.Reads ds es) :
    es.map Entity.aliasName = ds.map EntityDocument.aliasName := by
  induction h with
  | nil => rfl
  | cons he _ ih => rw [List.map_cons, List.map_cons, he.aliasName, ih]

theorem entityReferences_of_reads {d : EntityDocument} {e : Entity} (h : d.Reads e) :
    ((Catalog.entityReferences e).map fun r => (e.aliasName, r)) = d.occurrences := by
  have hprops := h.properties
  unfold Catalog.entityReferences Entity.propertyTypes EntityDocument.occurrences
  rw [h.aliasName]
  generalize d.properties = ps, e.properties = qs at hprops
  induction hprops with
  | nil => rfl
  | cons hp _ ih =>
    rw [List.map_cons, List.flatMap_cons, List.map_append, ih, List.flatMap_cons,
      EntityDocument.propertyOccurrences, hp.type, hp.name]
    simp [PropertyType.references_eq_preorder, Function.comp_def]

theorem references_of_reads (h : List.Forall₂ EntityDocument.Reads d.entities es) :
    Catalog.references ⟨es⟩ = d.occurrences := by
  unfold Catalog.references occurrences
  generalize d.entities = ds at h
  induction h with
  | nil => rfl
  | cons he _ ih => rw [List.flatMap_cons, List.flatMap_cons, entityReferences_of_reads he, ih]

/-! ### Documents -/

/-- Aliases are distinct names, descriptors are accepted, and every reference inside the type of a
property names one of the aliases. -/
structure Acceptable (d : CatalogDocument) : Prop where
  valid : ∀ e ∈ d.entities, Name.Valid e.aliasName = true
  accepted : ∀ e ∈ d.entities, ∀ p ∈ e.properties, ∃ t, PropertyType.ofDescriptor p.2 = .ok t
  distinct : d.aliases.Nodup
  resolved : ∀ e ∈ d.entities, ∀ p ∈ e.properties, ∀ t, PropertyType.ofDescriptor p.2 = .ok t →
    ∀ target, .reference target ∈ t.preorder → target ∈ d.aliases

/-- What a document is refused for: the first offence of the first entity that has one; where all
entities can be read, the first alias that is repeated; and where aliases are distinct, the first
reference that names none of them. -/
inductive Failure (d : CatalogDocument) : DefinitionError → Prop where
  | entity {before after : List EntityDocument} {e : EntityDocument} {err : DefinitionError}
      (split : d.entities = before ++ e :: after) (readable : ∀ b ∈ before, b.Readable)
      (failure : e.Failure err) : Failure d err
  | repeated {before after : List String} {aliasName : String}
      (readable : ∀ e ∈ d.entities, e.Readable)
      (split : d.aliases = before ++ aliasName :: after) (distinct : before.Nodup)
      (mem : aliasName ∈ before) : Failure d (.duplicateAlias aliasName)
  | dangling {before after : List (String × String × String)} {entity property target : String}
      (readable : ∀ e ∈ d.entities, e.Readable) (distinct : d.aliases.Nodup)
      (split : d.occurrences = before ++ (entity, property, target) :: after)
      (resolved : ∀ r ∈ before, r.2.2 ∈ d.aliases) (unknown : target ∉ d.aliases) :
      Failure d (.unknownReference entity property target)

theorem readEntities_eq_mapM (ds : List EntityDocument) :
    readEntities ds = ds.mapM EntityDocument.toEntity := by
  induction ds with
  | nil => rfl
  | cons d ds ih => rw [readEntities, List.mapM_cons, ih]

theorem readEntities_eq_ok_iff {ds : List EntityDocument} :
    readEntities ds = .ok es ↔
      (∀ d ∈ ds, Name.Valid d.aliasName = true) ∧ List.Forall₂ EntityDocument.Reads ds es := by
  rw [readEntities_eq_mapM, mapM_eq_ok_iff]
  simp only [EntityDocument.toEntity_eq_ok_iff]
  constructor
  · intro h
    refine ⟨?_, h.imp fun _ _ => And.right⟩
    induction h with
    | nil => simp
    | cons hd _ ih => exact List.forall_mem_cons.2 ⟨hd.1, ih⟩
  · rintro ⟨hvalid, h⟩
    induction h with
    | nil => exact .nil
    | cons hd _ ih =>
      obtain ⟨hname, hvalid⟩ := List.forall_mem_cons.1 hvalid
      exact .cons ⟨hname, hd⟩ (ih hvalid)

theorem readEntities_isOk_iff {ds : List EntityDocument} :
    (∃ es, readEntities ds = .ok es) ↔ ∀ d ∈ ds, d.Readable := by
  simp only [readEntities_eq_mapM, mapM_isOk_iff, EntityDocument.toEntity_isOk_iff]

theorem forall_occurrences_iff {P : String → Prop} :
    (∀ r ∈ d.occurrences, P r.2.2) ↔
      ∀ e ∈ d.entities, ∀ p ∈ e.properties, ∀ t, PropertyType.ofDescriptor p.2 = .ok t →
        ∀ target, .reference target ∈ t.preorder → P target := by
  have hproperty : ∀ aliasName p, (∀ r ∈ EntityDocument.propertyOccurrences aliasName p, P r.2.2) ↔
      ∀ t, PropertyType.ofDescriptor p.2 = .ok t →
        ∀ target, .reference target ∈ t.preorder → P target := by
    intro aliasName p
    unfold EntityDocument.propertyOccurrences
    cases PropertyType.ofDescriptor p.2 <;> simp
  simp only [occurrences, EntityDocument.occurrences, List.forall_mem_flatMap, hproperty]

theorem acceptable_iff :
    d.Acceptable ↔ (∀ e ∈ d.entities, e.Readable) ∧ d.aliases.Nodup ∧
      ∀ r ∈ d.occurrences, r.2.2 ∈ d.aliases := by
  rw [forall_occurrences_iff (P := (· ∈ d.aliases))]
  constructor
  · intro h
    exact ⟨fun e he => ⟨h.valid e he, h.accepted e he⟩, h.distinct, h.resolved⟩
  · rintro ⟨hreadable, hdistinct, hresolved⟩
    exact ⟨fun e he => (hreadable e he).valid, fun e he => (hreadable e he).accepted, hdistinct,
      hresolved⟩

/-- What is left to judge once the entities are read. -/
theorem ofEntities_of_reads (h : List.Forall₂ EntityDocument.Reads d.entities es) :
    (Catalog.ofEntities es = .ok c ↔
      d.aliases.Nodup ∧ (∀ r ∈ d.occurrences, r.2.2 ∈ d.aliases) ∧ c = ⟨es⟩) := by
  rw [Catalog.ofEntities_eq_ok_iff, references_of_reads h, aliases_of_reads h]
  rfl

theorem toCatalog_eq_ok_iff :
    d.toCatalog = .ok c ↔
      d.Acceptable ∧ List.Forall₂ EntityDocument.Reads d.entities c.entities := by
  unfold toCatalog
  rw [exceptBind_eq_ok_iff, acceptable_iff]
  constructor
  · rintro ⟨es, hread, hbuilt⟩
    have hreads := (readEntities_eq_ok_iff.1 hread).2
    obtain ⟨hdistinct, hresolved, rfl⟩ := (ofEntities_of_reads hreads).1 hbuilt
    exact ⟨⟨readEntities_isOk_iff.1 ⟨es, hread⟩, hdistinct, hresolved⟩, hreads⟩
  · rintro ⟨⟨hreadable, hdistinct, hresolved⟩, hreads⟩
    have hread := readEntities_eq_ok_iff.2 ⟨fun e he => (hreadable e he).valid, hreads⟩
    exact ⟨_, hread, (ofEntities_of_reads hreads).2 ⟨hdistinct, hresolved, rfl⟩⟩

theorem toCatalog_isOk_iff : (∃ c, d.toCatalog = .ok c) ↔ d.Acceptable := by
  constructor
  · rintro ⟨c, h⟩
    exact (toCatalog_eq_ok_iff.1 h).1
  · intro h
    obtain ⟨hreadable, -⟩ := acceptable_iff.1 h
    obtain ⟨es, hread⟩ := readEntities_isOk_iff.2 hreadable
    exact ⟨⟨es⟩, toCatalog_eq_ok_iff.2 ⟨h, (readEntities_eq_ok_iff.1 hread).2⟩⟩

theorem readEntities_eq_error_iff :
    readEntities d.entities = .error err ↔
      ∃ before e after, d.entities = before ++ e :: after ∧ (∀ b ∈ before, b.Readable) ∧
        e.Failure err := by
  simp only [readEntities_eq_mapM, mapM_eq_error_iff, FirstRefused,
    EntityDocument.toEntity_isOk_iff, EntityDocument.toEntity_eq_error_iff]

theorem toCatalog_eq_error_iff : d.toCatalog = .error err ↔ d.Failure err := by
  unfold toCatalog
  rw [exceptBind_eq_error_iff, readEntities_eq_error_iff]
  constructor
  · rintro (⟨before, e, after, hsplit, hbefore, he⟩ | ⟨es, hread, hrefused⟩)
    · exact .entity hsplit hbefore he
    · have hreadable := readEntities_isOk_iff.1 ⟨es, hread⟩
      have hreads := (readEntities_eq_ok_iff.1 hread).2
      rw [Catalog.ofEntities_eq_error_iff, references_of_reads hreads,
        aliases_of_reads hreads] at hrefused
      obtain ⟨before, a, after, hsplit, hbefore, ha, rfl⟩ |
        ⟨hdistinct, before, entity, property, target, after, hsplit, hbefore, hunknown, rfl⟩ :=
        hrefused
      · exact .repeated hreadable hsplit hbefore ha
      · exact .dangling hreadable hdistinct hsplit hbefore hunknown
  · rintro (⟨hsplit, hbefore, he⟩ | ⟨hreadable, hsplit, hbefore, ha⟩ |
      ⟨hreadable, hdistinct, hsplit, hbefore, hunknown⟩)
    · exact .inl ⟨_, _, _, hsplit, hbefore, he⟩
    all_goals
      obtain ⟨es, hread⟩ := readEntities_isOk_iff.2 hreadable
      have hreads := (readEntities_eq_ok_iff.1 hread).2
      refine .inr ⟨es, hread, ?_⟩
      rw [Catalog.ofEntities_eq_error_iff, references_of_reads hreads, aliases_of_reads hreads]
    · exact .inl ⟨_, _, _, hsplit, hbefore, ha, rfl⟩
    · exact .inr ⟨hdistinct, _, _, _, _, _, hsplit, hbefore, hunknown, rfl⟩

/-- **Which documents become catalogs, and what the others are refused for.** A document becomes
a catalog just when its aliases are distinct names, its descriptors are accepted and its references
name its aliases; the catalog then has its entities and they have their properties, all in order.
Every other document is refused with one error, for its first offence at the earliest stage. -/
theorem toCatalog_outcome (d : CatalogDocument) :
    ((∃ c, d.toCatalog = .ok c) ↔ d.Acceptable) ∧
    (∀ c, d.toCatalog = .ok c ↔
      d.Acceptable ∧ List.Forall₂ EntityDocument.Reads d.entities c.entities) ∧
    (∀ err, d.toCatalog = .error err ↔ d.Failure err) :=
  ⟨toCatalog_isOk_iff, fun _ => toCatalog_eq_ok_iff, fun _ => toCatalog_eq_error_iff⟩

/-- A reference to nothing, a descriptor without a tag in a shape in a list, an alias that is
repeated and one that is no name: the descriptor comes first. -/
theorem toCatalog_outcome_note :
    let link : Json := .obj [("type", .str "SchemaType"), ("schema", .str "tag")]
    let item : Json := .obj [("type", .str "Shape"), ("properties", .obj [("w", .obj [])])]
    let list : Json := .obj [("type", .str "Array"), ("items", item)]
    let d : CatalogDocument := ⟨
      [ ⟨"note", none, none, false, [("title", .str "String"), ("link", link)]⟩,
        ⟨"note", none, none, false, [("sizes", list), ("link", .null)]⟩,
        ⟨"9", none, none, true, []⟩ ]⟩
    d.Failure (.malformedProperty "note" "sizes" "w: missing 'type' tag") := by
  intro link item list d
  have hrefused : (d.toCatalog.map fun _ => ()) =
      .error (.malformedProperty "note" "sizes" "w: missing 'type' tag") := by decide +kernel
  exact ((toCatalog_outcome d).2.2 _).1 (exceptMap_eq_error_iff.1 hrefused)

end CatalogDocument

end EntityGraph
