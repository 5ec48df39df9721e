import EntityGraph.Proofs.Catalog.References
import EntityGraph.Proofs.Compile.Session

/-!
References that lead nowhere. A catalog that is accepted has its references checked once, on the
types of properties; compilations find references on their own, from entity to entity and from
type to type. Without projections every reference that a compilation can meet is one of those that
have been checked, so that none is refused for a target that is unknown.
-/

namespace EntityGraph

namespace Catalog

/-- The catalog has been accepted: it is built in one piece of entities, or it is loaded from a
document. -/
def Accepted (c : Catalog) : Prop :=
  (∃ es, ofEntities es = .ok c) ∨ (∃ v, ofJson v = .ok c) ∨ ∃ text, ofToml text = .ok c

variable {c : Catalog}

theorem exists_ofEntities_of_toCatalog {d : CatalogDocument} (h : d.toCatalog = .ok c) :
    ∃ es, ofEntities es = .ok c := by
  obtain ⟨es, -, hbuilt⟩ := exceptBind_eq_ok_iff.1 h
  exact ⟨es, hbuilt⟩

/-- However a catalog is accepted, it is built in one piece. -/
theorem Accepted.exists_ofEntities (h : c.Accepted) : ∃ es, ofEntities es = .ok c := by
  rcases h with hbuilt | ⟨v, hread⟩ | ⟨text, hread⟩
  · exact hbuilt
  · unfold ofJson at hread
    split at hread
    · exact exists_ofEntities_of_toCatalog hread
    · cases hread
  · unfold ofToml at hread
    split at hread
    · exact exists_ofEntities_of_toCatalog hread
    · cases hread

/-- Every reference of an accepted catalog names one of its entities. -/
theorem Accepted.resolved (h : c.Accepted) : ∀ r ∈ c.references, r.2.2 ∈ c.aliases := by
  obtain ⟨es, hbuilt⟩ := h.exists_ofEntities
  obtain ⟨-, hresolved, rfl⟩ := ofEntities_eq_ok_iff.1 hbuilt
  exact hresolved

/-- The catalog has been checked for a reference to this alias. -/
def Refers (c : Catalog) (target : String) : Prop :=
  ∃ entity property, (entity, property, target) ∈ c.references

theorem refers_of_property {e : Entity} (he : e ∈ c.entities) {p : String × PropertyType}
    (hp : p ∈ e.propertyTypes) {target : String} (htarget : target ∈ p.2.references) :
    c.Refers target := by
  refine ⟨e.aliasName, p.1, List.mem_flatMap.2 ⟨e, he, List.mem_map_of_mem ?_⟩⟩
  exact List.mem_flatMap.2 ⟨p, hp, List.mem_map_of_mem htarget⟩

end Catalog

/-! ### What can be met -/

namespace Demand

variable {c : Catalog} {q q' : Demand}

/-- A call for a type of an entity of the catalog, under any options. -/
inductive CallOn (c : Catalog) : Demand → Prop
  | object (o : OutputOptions) {e : Entity} : e ∈ c.entities → CallOn c (.entity (.output o) e)
  | input {e : Entity} : e ∈ c.entities → CallOn c (.entity .input e)
  | filter {e : Entity} : e ∈ c.entities → CallOn c (.filter e)
  | sort {e : Entity} : e ∈ c.entities → CallOn c (.sort e)

/-- The demand is for an entity of the catalog, or for a type whose references the catalog has
been checked for. -/
def Covered (c : Catalog) : Demand → Prop
  | .entity _ e => e ∈ c.entities
  | .property _ _ t => ∀ target ∈ t.references, c.Refers target
  | .filter e => e ∈ c.entities
  | .sort e => e ∈ c.entities

theorem CallOn.covered (h : CallOn c q) : q.Covered c := by
  cases h <;> assumption

theorem fieldsOf_of_empty (c : Catalog) (u : TypeUse) (e : Entity) :
    CompileContext.fieldsOf ⟨c, .empty⟩ u e = e.persistedFields := by
  unfold CompileContext.fieldsOf
  split
  · split
    · rename_i p _ hp
      exact nomatch hp
    · rfl
  · rfl

/-- **Coverage is passed on**, from entities to the types of their properties, down into these, and
over references to other entities. -/
theorem Covered.leads (h : q.Covered c) (hl : Leads ⟨c, .empty⟩ q q') : q'.Covered c := by
  cases hl with
  | field hf _ =>
    rw [fieldsOf_of_empty] at hf
    obtain ⟨p, hp, hpf⟩ := List.mem_map.1 hf
    obtain ⟨rfl, rfl⟩ := Prod.mk.inj hpf
    exact fun target htarget => Catalog.refers_of_property h hp htarget
  | member hm =>
    exact fun target htarget => h target (PropertyType.mem_fieldReferences hm htarget)
  | item => exact h
  | target ha => exact Catalog.mem_of_get? ha

theorem Covered.of_met {qs : List Demand} (hqs : ∀ p ∈ qs, p.CallOn c)
    (h : Met ⟨c, .empty⟩ qs q) : q.Covered c := by
  obtain ⟨p, hp, hreach⟩ := h
  induction hreach with
  | refl => exact (hqs p hp).covered
  | tail _ hl ih => exact ih.leads hl

end Demand

/-! ### Sessions -/

/-- What a session refuses, whatever it has refused before, it refuses for a fault of a demand
that is met. -/
theorem session_faults {x : CompileContext} {P : Demand → Prop}
    (hclosed : ∀ q q', P q → Leads x q q' → P q') {qs : List Demand} (hqs : ∀ q ∈ qs, P q)
    {r : TypeRegistry} (hr : Consistent x P r) {f : CompileFailure}
    (hf : .error f ∈ (x.session qs r).1) : Fault x P P f := by
  induction qs generalizing r with
  | nil => cases hf
  | cons q qs ih =>
    rw [CompileContext.session_cons] at hf
    have hq := answer_serves (fun _ h => h) hclosed (hqs q List.mem_cons_self) hr
    rcases List.mem_cons.1 hf with hhead | htail
    · exact hq.error f hhead.symm
    · exact ih (fun q' hq' => hqs q' (List.mem_cons_of_mem _ hq')) hq.consistent htail

/-- **References of accepted catalogs are found.** Without projections, no sequence of calls for
types of entities is refused for an unknown reference, whatever has been refused before; and every
reference that the calls can meet is one that the catalog has been checked for. -/
theorem session_resolved {c : Catalog} (hc : c.Accepted) (qs : List Demand)
    (hqs : ∀ q ∈ qs, q.CallOn c) :
    (∀ a ∈ (CompileContext.session ⟨c, .empty⟩ qs .empty).1, ∀ name target,
      a ≠ .error (.refused (.unknownReference name target))) ∧
    (∀ u name target, Met ⟨c, .empty⟩ qs (.property u name (.reference target)) →
      (∃ entity property, (entity, property, target) ∈ c.references) ∧
        ∃ e ∈ c.entities, e.aliasName = target) := by
  have hmet : ∀ u name target, Met ⟨c, .empty⟩ qs (.property u name (.reference target)) →
      c.Refers target ∧ target ∈ c.aliases := by
    intro u name target h
    have hrefers := Demand.Covered.of_met hqs h target List.mem_cons_self
    obtain ⟨entity, property, hmem⟩ := hrefers
    exact ⟨⟨entity, property, hmem⟩, hc.resolved _ hmem⟩
  refine ⟨fun a ha name target hrefused => ?_, fun u name target h => ?_⟩
  · subst hrefused
    have hfault := session_faults (P := Met ⟨c, .empty⟩ qs) (fun _ _ h hl => h.leads hl)
      (fun _ hq => Met.of_mem hq) .empty ha
    cases hfault with
    | unknown hq hunknown =>
      have hcontains := Catalog.contains_iff.2 (hmet _ _ _ hq).2
      rw [Catalog.contains, hunknown] at hcontains
      cases hcontains
  · obtain ⟨hrefers, hlisted⟩ := hmet u name target h
    exact ⟨hrefers, List.mem_map.1 hlisted⟩

/-- The second call is refused, since the name of the public type is taken. -/
theorem session_resolved_archive :
    let c : Catalog := ⟨[folderEntity, fileEntity]⟩
    let qs := [Demand.entity (.output .publicType) folderEntity,
      .entity (.output ⟨"", "", false, .persisted⟩) folderEntity, .sort folderEntity,
      .entity .input fileEntity]
    c.Accepted ∧ (∀ q ∈ qs, q.CallOn c) ∧
      (CompileContext.session ⟨c, .empty⟩ qs .empty).1 =
        [.ok (.named "Folder"), .error (.refused (.conflict "Folder")),
          .ok (.named "FolderEntitySort"), .ok (.named "FileInput")] ∧
      Met ⟨c, .empty⟩ qs
        (.property .input (inputTypeName "File" ++ "place" ++ "folder") (.reference "Folder")) ∧
      ∃ entity property, (entity, property, "Folder") ∈ c.references := by
  intro c qs
  have hc : c.Accepted :=
    .inl ⟨c.entities, Catalog.ofEntities_eq_ok_iff.2 ⟨by decide, by decide +kernel, rfl⟩⟩
  have hfolder : folderEntity ∈ c.entities := List.mem_cons_self
  have hfile : fileEntity ∈ c.entities := List.mem_cons_of_mem _ List.mem_cons_self
  have hqs : ∀ q ∈ qs, q.CallOn c := by
    simp only [qs, List.forall_mem_cons, List.not_mem_nil, false_implies, implies_true, and_true]
    exact ⟨.object _ hfolder, .object _ hfolder, .sort hfolder, .input hfile⟩
  have hinput : Met ⟨c, .empty⟩ qs (.entity .input fileEntity) := Met.of_mem (by simp [qs])
  have hplace := hinput.leads (.field List.mem_cons_self (show "place" ≠ idField by decide))
  have hmet := hplace.leads (.member (List.mem_cons_of_mem _ List.mem_cons_self))
  exact ⟨hc, hqs, by decide +kernel, hmet, ((session_resolved hc qs hqs).2 _ _ _ hmet).1⟩

end EntityGraph
