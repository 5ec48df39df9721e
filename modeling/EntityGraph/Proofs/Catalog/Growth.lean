import EntityGraph.Proofs.Catalog.References
import Mathlib.Data.List.Induction

/-!
Catalogs that grow. Entities are added one by one, a catalog gives way to one that is built in one
piece, and references are checked in between. A step that is refused leaves the catalog as it was.
So a catalog lists the entities that it was last replaced by and, after them, those added since,
every alias once; and whether its references are resolved does not depend on the order.
-/

namespace EntityGraph

/-! ### Steps -/

/-- A step on a catalog: an entity is added at the end, a catalog of these entities takes its place,
or its references are checked. -/
inductive CatalogStep where
  | add (e : Entity)
  | replace (es : List Entity)
  | check

/-- A step that has been made, with its answer. -/
structure CatalogEvent where
  step : CatalogStep
  answer : Except DefinitionError Unit

namespace CatalogEvent

/-- The entity that the step has added. -/
def added? : CatalogEvent → Option Entity
  | ⟨.add e, .ok _⟩ => some e
  | _ => none

/-- The entities that have taken the place of those before. -/
def replacement? : CatalogEvent → Option (List Entity)
  | ⟨.replace es, .ok _⟩ => some es
  | _ => none

/-- **What is listed after steps**: the entities of the last replacement, or none where there has
been no replacement, and after them the entities added since. -/
def Listed (log : List CatalogEvent) (es : List Entity) : Prop :=
  ∃ before after base, log = before ++ after ∧ es = base ++ after.filterMap added? ∧
    (∀ v ∈ after, v.replacement? = none) ∧
    (before = [] ∧ base = [] ∨
      ∃ earlier v, before = earlier ++ [v] ∧ v.replacement? = some base)

variable {log : List CatalogEvent} {v : CatalogEvent} {es : List Entity}

theorem listed_nil : Listed [] [] :=
  ⟨[], [], [], rfl, rfl, List.forall_mem_nil _, .inl ⟨rfl, rfl⟩⟩

/-- A step that replaces nothing leaves what is listed, with the entity that it adds. -/
theorem Listed.concat (h : Listed log es) (hv : v.replacement? = none) :
    Listed (log ++ [v]) (es ++ v.added?.toList) := by
  obtain ⟨before, after, base, rfl, rfl, hafter, hbefore⟩ := h
  refine ⟨before, after ++ [v], base, List.append_assoc _ _ _, ?_, ?_, hbefore⟩
  · rw [List.filterMap_append, List.append_assoc]
    cases hadd : v.added? <;> simp [hadd]
  · exact List.forall_mem_append.2 ⟨hafter, List.forall_mem_singleton.2 hv⟩

theorem listed_of_replacement (log : List CatalogEvent) (hv : v.replacement? = some es) :
    Listed (log ++ [v]) es :=
  ⟨log ++ [v], [], es, (List.append_nil _).symm, (List.append_nil _).symm, List.forall_mem_nil _,
    .inr ⟨log, v, rfl, hv⟩⟩

end CatalogEvent

namespace Catalog

/-- The catalog that a change makes, unless it is refused. -/
def settle (c : Catalog) : Except DefinitionError Catalog → Except DefinitionError Unit × Catalog
  | .ok d => (.ok (), d)
  | .error err => (.error err, c)

/-- Makes a step. -/
def perform (c : Catalog) : CatalogStep → Except DefinitionError Unit × Catalog
  | .add e => c.settle (c.add e)
  | .replace es => c.settle (ofEntities es)
  | .check => (c.validateReferences, c)

/-- Makes steps one after the other, and answers what has been made of them. -/
def run (c : Catalog) : List CatalogStep → List CatalogEvent × Catalog
  | [] => ([], c)
  | s :: steps =>
    let (log, d) := (c.perform s).2.run steps
    (⟨s, (c.perform s).1⟩ :: log, d)

/-- The map of a catalog: its entities, each written under its alias. -/
def byAlias (c : Catalog) : Fields Entity :=
  Fields.ofList (c.entities.map fun e => (e.aliasName, e))

variable {c d : Catalog} {s : CatalogStep} {err : DefinitionError}

/-! ### One step -/

@[simp] theorem settle_answer {x : Except DefinitionError Catalog} :
    (c.settle x).1 = .error err ↔ x = .error err := by
  cases x <;> simp [settle]

/-- **Everything that a step can do.** -/
theorem perform_cases (c : Catalog) (s : CatalogStep) :
    (∃ err, c.perform s = (.error err, c)) ∨
    (∃ e, s = .add e ∧ e.aliasName ∉ c.aliases ∧
      c.perform s = (.ok (), ⟨c.entities ++ [e]⟩)) ∨
    (∃ es, s = .replace es ∧ (es.map Entity.aliasName).Nodup ∧ c.perform s = (.ok (), ⟨es⟩)) ∨
    (s = .check ∧ c.perform s = (.ok (), c)) := by
  cases s with
  | add e =>
    cases hadd : c.add e with
    | error err => exact .inl ⟨err, by rw [perform, hadd, settle]⟩
    | ok d =>
      obtain ⟨hnew, rfl⟩ := add_eq_ok_iff.1 hadd
      exact .inr (.inl ⟨e, rfl, hnew, by rw [perform, hadd, settle]⟩)
  | replace es =>
    cases hbuilt : ofEntities es with
    | error err => exact .inl ⟨err, by rw [perform, hbuilt, settle]⟩
    | ok d =>
      obtain ⟨hnodup, -, rfl⟩ := ofEntities_eq_ok_iff.1 hbuilt
      exact .inr (.inr (.inl ⟨es, rfl, hnodup, by rw [perform, hbuilt, settle]⟩))
  | check =>
    cases hcheck : c.validateReferences with
    | error err => exact .inl ⟨err, by rw [perform, hcheck]⟩
    | ok u => exact .inr (.inr (.inr ⟨rfl, by rw [perform, hcheck]⟩))

/-- A step that is refused leaves the catalog as it was. -/
theorem perform_of_error (h : (c.perform s).1 = .error err) : (c.perform s).2 = c := by
  rcases c.perform_cases s with ⟨e, he⟩ | ⟨e, -, -, he⟩ | ⟨es, -, -, he⟩ | ⟨-, he⟩ <;>
    rw [he] at h ⊢ <;> cases h

theorem nodup_perform (h : c.aliases.Nodup) (s : CatalogStep) : (c.perform s).2.aliases.Nodup := by
  rcases c.perform_cases s with ⟨err, he⟩ | ⟨e, -, hnew, he⟩ | ⟨es, -, hnodup, he⟩ | ⟨-, he⟩ <;>
    rw [he]
  · exact h
  · exact nodup_add h (add_eq_ok_iff.2 ⟨hnew, rfl⟩)
  · exact hnodup
  · exact h

theorem listed_perform {log : List CatalogEvent} (h : CatalogEvent.Listed log c.entities)
    (s : CatalogStep) :
    CatalogEvent.Listed (log ++ [⟨s, (c.perform s).1⟩]) (c.perform s).2.entities := by
  rcases c.perform_cases s with ⟨err, he⟩ | ⟨e, rfl, -, he⟩ | ⟨es, rfl, -, he⟩ | ⟨rfl, he⟩ <;>
    rw [he]
  · have hkept := h.concat (v := ⟨s, .error err⟩) (by cases s <;> rfl)
    rwa [show CatalogEvent.added? ⟨s, .error err⟩ = none by cases s <;> rfl,
      Option.toList_none, List.append_nil] at hkept
  · exact h.concat rfl
  · exact CatalogEvent.listed_of_replacement log rfl
  · have hkept := h.concat (v := ⟨.check, .ok ()⟩) rfl
    rwa [show CatalogEvent.added? ⟨.check, .ok ()⟩ = none from rfl, Option.toList_none,
      List.append_nil] at hkept

/-! ### Runs -/

theorem run_concat (c : Catalog) (steps : List CatalogStep) (s : CatalogStep) :
    c.run (steps ++ [s]) =
      ((c.run steps).1 ++ [⟨s, ((c.run steps).2.perform s).1⟩], ((c.run steps).2.perform s).2) := by
  induction steps generalizing c with
  | nil => rfl
  | cons s' steps ih => simp only [List.cons_append, run, ih]

theorem nodup_run (h : c.aliases.Nodup) (steps : List CatalogStep) :
    (c.run steps).2.aliases.Nodup := by
  induction steps generalizing c with
  | nil => exact h
  | cons s steps ih => exact ih (nodup_perform h s)

/-- After any steps, the catalog lists what its log says. -/
theorem listed_run (steps : List CatalogStep) :
    CatalogEvent.Listed (empty.run steps).1 (empty.run steps).2.entities := by
  induction steps using List.reverseRecOn with
  | nil => exact CatalogEvent.listed_nil
  | append_singleton steps s ih =>
    rw [run_concat]
    exact listed_perform ih s

/-! ### The map of a catalog -/

theorem keys_of_entities (c : Catalog) :
    Fields.keys (c.entities.map fun e => (e.aliasName, e)) = c.aliases := by
  simp [Fields.keys, aliases, Function.comp_def]

/-- Where aliases are distinct, no entity takes the place of another in the map. -/
theorem byAlias_eq (h : c.aliases.Nodup) :
    c.byAlias = c.entities.map fun e => (e.aliasName, e) :=
  Fields.ofList_eq_self (by rwa [Fields.Distinct, keys_of_entities])

/-- An alias is looked up in the map. -/
theorem get?_eq_byAlias (h : c.aliases.Nodup) (a : String) :
    c.get? a = Fields.get? c.byAlias a := by
  rw [byAlias_eq h, get?]
  generalize c.entities = es
  induction es with
  | nil => rfl
  | cons e es ih =>
    rw [List.map_cons, Fields.get?_cons, List.find?_cons, ih]
    by_cases ha : e.aliasName = a <;> simp [ha]

/-- Every entity of the catalog is found under its alias, and nothing else is found. -/
theorem get?_eq_some_iff (h : c.aliases.Nodup) {a : String} {e : Entity} :
    c.get? a = some e ↔ e ∈ c.entities ∧ e.aliasName = a := by
  refine ⟨fun he => ⟨mem_of_get? he, get?_alias he⟩, ?_⟩
  rintro ⟨he, rfl⟩
  rw [get?_eq_byAlias h, byAlias_eq h]
  have hdistinct : Fields.Distinct (c.entities.map fun e => (e.aliasName, e)) := by
    rwa [Fields.Distinct, keys_of_entities]
  exact Fields.get?_of_mem hdistinct (List.mem_map_of_mem he)

/-! ### References at any depth -/

/-- References are resolved where each that occurs in a property, at any depth, names an alias. -/
theorem validateReferences_eq_ok_iff_occurs {u : Unit} :
    c.validateReferences = .ok u ↔
      ∀ e ∈ c.entities, ∀ p ∈ e.propertyTypes, ∀ a, .reference a ∈ p.2.preorder →
        a ∈ c.aliases := by
  have htype (t : PropertyType) : (∀ a ∈ t.references, a ∈ c.aliases) ↔
      ∀ a, .reference a ∈ t.preorder → a ∈ c.aliases := by
    simp [PropertyType.references_eq_preorder]
  rw [validateReferences_eq_ok_iff]
  simp only [references, entityReferences, List.forall_mem_flatMap, List.forall_mem_map, htype]

/-- The order of the entities does not count for references. -/
theorem validateReferences_eq_ok_iff_of_perm (h : d.entities.Perm c.entities) {u : Unit} :
    d.validateReferences = .ok u ↔ c.validateReferences = .ok u := by
  have haliases (a : String) : a ∈ d.aliases ↔ a ∈ c.aliases := (h.map _).mem_iff
  simp only [validateReferences_eq_ok_iff_occurs, haliases, h.mem_iff]

/-! ### All steps -/

/-- **Steps keep a catalog in order.** After any steps from the empty catalog, the aliases are
distinct, and the map under them holds the entities in order, each under its own alias; they are
those of the last replacement, followed by those added since, and looking up an alias finds just
these. A step that is refused leaves the catalog as it is: an addition is refused where the alias is
there, and a replacement for the first alias that is repeated or else, where none is, for the first
reference without a target. Checking succeeds where every reference at any depth names an alias,
whatever the order of the entities. -/
theorem steps_keep_catalog (steps : List CatalogStep) :
    let c := (empty.run steps).2
    (c.aliases.Nodup ∧ Fields.keys c.byAlias = c.aliases ∧ c.byAlias.map Prod.snd = c.entities ∧
      ∀ p ∈ c.byAlias, p.1 = p.2.aliasName) ∧
    CatalogEvent.Listed (empty.run steps).1 c.entities ∧
    (∀ a, c.get? a = Fields.get? c.byAlias a) ∧
    (∀ a e, c.get? a = some e ↔ e ∈ c.entities ∧ e.aliasName = a) ∧
    (∀ s err, (c.perform s).1 = .error err → (c.perform s).2 = c) ∧
    (∀ e err, (c.perform (.add e)).1 = .error err ↔
      e.aliasName ∈ c.aliases ∧ err = .duplicateAlias e.aliasName) ∧
    (∀ es err, (c.perform (.replace es)).1 = .error err ↔
      (∃ before a after, es.map Entity.aliasName = before ++ a :: after ∧ before.Nodup ∧
        a ∈ before ∧ err = .duplicateAlias a) ∨
      ((es.map Entity.aliasName).Nodup ∧ ∃ before entity property target after,
        references ⟨es⟩ = before ++ (entity, property, target) :: after ∧
          (∀ r ∈ before, r.2.2 ∈ es.map Entity.aliasName) ∧
            target ∉ es.map Entity.aliasName ∧
              err = .unknownReference entity property target)) ∧
    (∀ d : Catalog, d.entities.Perm c.entities →
      ((d.perform .check).1 = .ok () ↔
        ∀ e ∈ c.entities, ∀ p ∈ e.propertyTypes, ∀ a, .reference a ∈ p.2.preorder →
          a ∈ c.aliases)) := by
  intro c
  have hnodup : c.aliases.Nodup := nodup_run (c := empty) List.nodup_nil steps
  have hmap := byAlias_eq hnodup
  refine ⟨⟨hnodup, by rw [hmap, keys_of_entities], by simp [hmap, Function.comp_def], ?_⟩,
    listed_run steps, get?_eq_byAlias hnodup, fun a e => get?_eq_some_iff hnodup,
    fun s err => perform_of_error, fun e err => ?_, fun es err => ?_, fun d hd => ?_⟩
  · rw [hmap]
    exact List.forall_mem_map.2 fun e _ => rfl
  · exact settle_answer.trans add_eq_error_iff
  · exact settle_answer.trans ofEntities_eq_error_iff
  · exact (validateReferences_eq_ok_iff_of_perm hd).trans validateReferences_eq_ok_iff_occurs

/-- A note refers to a tag that is added after it. Its alias is there when it is added again, and a
replacement that repeats an alias and refers to nothing is refused for the alias. -/
theorem steps_keep_catalog_notes :
    let note := { Entity.bare "note" with
      properties := [("tags", .plain (.array (.reference "tag")))] }
    let c := (empty.run [.replace [Entity.bare "user"], .add note, .check,
      .add (.bare "tag")]).2
    CatalogEvent.Listed (empty.run [.replace [Entity.bare "user"], .add note, .check,
      .add (.bare "tag")]).1 c.entities ∧
    c.entities = [Entity.bare "user", note, Entity.bare "tag"] ∧
    (c.perform (.add note)).1 = .error (.duplicateAlias "note") ∧
    (c.perform (.add note)).2 = c ∧
    (c.perform (.replace [note, note])).1 = .error (.duplicateAlias "note") ∧
    ((⟨c.entities.reverse⟩ : Catalog).perform .check).1 = .ok () := by
  intro note c
  obtain ⟨-, hlisted, -, -, hkept, hadd, hreplace, hcheck⟩ := steps_keep_catalog
    [.replace [Entity.bare "user"], .add note, .check, .add (.bare "tag")]
  have hrefused : (c.perform (.add note)).1 = .error (.duplicateAlias "note") :=
    (hadd note _).2 ⟨by decide, rfl⟩
  refine ⟨hlisted, rfl, hrefused, hkept _ _ hrefused, ?_, ?_⟩
  · exact (hreplace _ _).2 (.inl ⟨["note"], "note", [], rfl, by decide, by decide, rfl⟩)
  · exact (hcheck _ (List.reverse_perm _)).2 ((hcheck c (.refl _)).1 rfl)

end Catalog

end EntityGraph
