import EntityGraph.Schema.Root
import Mathlib.Data.List.Nodup

/-!
The names of root fields. Every one is an alias with a suffix, and the suffixes of mutations tell
the alias. Those of queries do so but for two coincidences: the accessor of a single record has no
suffix at all, and an alias may end in what sets the look-ups of persisted records apart.
-/

namespace EntityGraph.Entity

/-! ### Suffixes -/

/-- All suffixes of queries. -/
def allQuerySuffixes : List String :=
  ["Count", "EntityFindById", "List", "EntityList", "FindById", ""]

/-- The suffixes of the queries of an entity. -/
def querySuffixes (e : Entity) : List String :=
  ["Count", "EntityFindById", "List", "EntityList", if e.maxOne then "" else "FindById"]

/-- The suffixes of mutations. -/
def mutationSuffixes : List String := ["Create", "Update", "RemoveById"]

def queryNames (e : Entity) : List String := e.querySuffixes.map (e.aliasName ++ ·)

def mutationNames (e : Entity) : List String := mutationSuffixes.map (e.aliasName ++ ·)

theorem names_queryFields (e : Entity) (t : EntityTypes) :
    (e.queryFields t).map FieldDef.name = e.queryNames := by
  unfold queryFields queryNames querySuffixes recordField
  cases e.maxOne <;> simp [queryField]

theorem names_mutationFields (e : Entity) (t : EntityTypes) :
    (e.mutationFields t).map FieldDef.name = e.mutationNames := by
  simp [mutationFields, mutationNames, mutationSuffixes, mutationField]

theorem querySuffixes_subset (e : Entity) : e.querySuffixes ⊆ allQuerySuffixes := by
  unfold querySuffixes
  cases e.maxOne <;> decide

theorem maxOne_of_empty_mem {e : Entity} (h : "" ∈ e.querySuffixes) : e.maxOne = true := by
  cases hone : e.maxOne with
  | true => rfl
  | false =>
    rw [querySuffixes, hone] at h
    exact absurd h (by decide)

/-- What each suffix of a query asks for. -/
def queryKinds : List (String × QueryKind) :=
  [("Count", .count), ("EntityFindById", .findById), ("List", .list), ("EntityList", .list),
    ("FindById", .findById), ("", .singleton)]

theorem queryFields_cases {e : Entity} {t : EntityTypes} {f : FieldDef}
    (hf : f ∈ e.queryFields t) :
    ∃ p ∈ queryKinds, f.name = e.aliasName ++ p.1 ∧ f.source = .query e.aliasName p.2 := by
  simp only [queryFields, List.mem_cons, List.not_mem_nil, or_false] at hf
  rcases hf with rfl | rfl | rfl | rfl | rfl
  · exact ⟨("Count", .count), by decide, rfl, rfl⟩
  · exact ⟨("EntityFindById", .findById), by decide, rfl, rfl⟩
  · exact ⟨("List", .list), by decide, rfl, rfl⟩
  · exact ⟨("EntityList", .list), by decide, rfl, rfl⟩
  · unfold recordField
    split
    · exact ⟨("", .singleton), by decide, String.append_empty.symm, rfl⟩
    · exact ⟨("FindById", .findById), by decide, rfl, rfl⟩

/-- What each suffix of a mutation does. -/
def mutationKinds : List (String × MutationKind) :=
  [("Create", .create), ("Update", .update), ("RemoveById", .remove)]

theorem mutationFields_cases {e : Entity} {t : EntityTypes} {f : FieldDef}
    (hf : f ∈ e.mutationFields t) :
    ∃ p ∈ mutationKinds, f.name = e.aliasName ++ p.1 ∧ f.source = .mutation e.aliasName p.2 := by
  simp only [mutationFields, List.mem_cons, List.not_mem_nil, or_false] at hf
  rcases hf with rfl | rfl | rfl
  · exact ⟨("Create", .create), by decide, rfl, rfl⟩
  · exact ⟨("Update", .update), by decide, rfl, rfl⟩
  · exact ⟨("RemoveById", .remove), by decide, rfl, rfl⟩

/-- **The suffix of a query tells what it asks for.** -/
theorem source_of_suffix {e : Entity} {t : EntityTypes} {f : FieldDef} (hf : f ∈ e.queryFields t)
    {suffix : String} {kind : QueryKind} (hname : f.name = e.aliasName ++ suffix)
    (hkind : ∀ p ∈ queryKinds, p.1 = suffix → p.2 = kind) :
    f.source = .query e.aliasName kind := by
  obtain ⟨p, hp, hs, hsource⟩ := queryFields_cases hf
  have hsuffix : p.1 = suffix := (String.append_right_inj e.aliasName).1 (hs.symm.trans hname)
  rw [hsource, hkind p hp hsuffix]

/-! ### Coincidences -/

/-- A suffix of a query that another one ends in is the other one, or empty, or lacks only what
sets persisted records apart. -/
theorem querySuffix_cases : ∀ s ∈ allQuerySuffixes, ∀ t ∈ allQuerySuffixes,
    s.toList <:+ t.toList → s = t ∨ s = "" ∨ t = "Entity" ++ s := by decide

theorem mutationSuffix_cases : ∀ s ∈ mutationSuffixes, ∀ t ∈ mutationSuffixes,
    s.toList <:+ t.toList → s = t := by decide

/-- Of two names that are the same, one ends in the suffix of the other. -/
theorem suffix_of_append_eq {a b s t : String} (h : a ++ s = b ++ t) :
    s.toList <:+ t.toList ∨ t.toList <:+ s.toList := by
  have hchars : a.toList ++ s.toList = b.toList ++ t.toList := by
    rw [← String.toList_append, h, String.toList_append]
  have hs : s.toList <:+ b.toList ++ t.toList := hchars ▸ List.suffix_append a.toList s.toList
  exact List.suffix_or_suffix_of_suffix hs (List.suffix_append _ _)

theorem alias_cases_of_suffix {a b s t : String} (hs : s ∈ allQuerySuffixes)
    (ht : t ∈ allQuerySuffixes) (h : a ++ s = b ++ t) (hst : s.toList <:+ t.toList) :
    a = b ∨ s = "" ∨ a = b ++ "Entity" := by
  rcases querySuffix_cases s hs t ht hst with rfl | hempty | rfl
  · exact .inl ((String.append_left_inj s).1 h)
  · exact .inr (.inl hempty)
  · rw [← String.append_assoc] at h
    exact .inr (.inr ((String.append_left_inj s).1 h))

/-- **Entities with a query of one name** have one alias, or the query is an accessor named by the
alias alone, or the alias of one is that of the other with the suffix of persisted types. -/
theorem alias_cases_of_queryName {d e : Entity} {n : String} (hd : n ∈ d.queryNames)
    (he : n ∈ e.queryNames) :
    d.aliasName = e.aliasName ∨ (d.maxOne = true ∧ n = d.aliasName) ∨
      (e.maxOne = true ∧ n = e.aliasName) ∨ d.aliasName = e.aliasName ++ "Entity" ∨
      e.aliasName = d.aliasName ++ "Entity" := by
  obtain ⟨s, hs, rfl⟩ := List.mem_map.1 hd
  obtain ⟨t, ht, hname⟩ := List.mem_map.1 he
  have hs' := d.querySuffixes_subset hs
  have ht' := e.querySuffixes_subset ht
  rcases suffix_of_append_eq hname with hts | hst
  · rcases alias_cases_of_suffix ht' hs' hname hts with halias | rfl | halias
    · exact .inl halias.symm
    · rw [String.append_empty] at hname
      exact .inr (.inr (.inl ⟨maxOne_of_empty_mem ht, hname.symm⟩))
    · exact .inr (.inr (.inr (.inr halias)))
  · rcases alias_cases_of_suffix hs' ht' hname.symm hst with halias | rfl | halias
    · exact .inl halias
    · exact .inr (.inl ⟨maxOne_of_empty_mem hs, String.append_empty⟩)
    · exact .inr (.inr (.inr (.inl halias)))

theorem alias_eq_of_mutationName {d e : Entity} {n : String} (hd : n ∈ d.mutationNames)
    (he : n ∈ e.mutationNames) : d.aliasName = e.aliasName := by
  obtain ⟨s, hs, rfl⟩ := List.mem_map.1 hd
  obtain ⟨t, ht, hname⟩ := List.mem_map.1 he
  have hsuffix : t = s := by
    rcases suffix_of_append_eq hname with hts | hst
    · exact mutationSuffix_cases t ht s hs hts
    · exact (mutationSuffix_cases s hs t ht hst).symm
  rw [hsuffix] at hname
  exact ((String.append_left_inj s).1 hname).symm

theorem nodup_queryNames (e : Entity) : e.queryNames.Nodup := by
  have hsuffixes : e.querySuffixes.Nodup := by
    unfold querySuffixes
    cases e.maxOne <;> decide
  exact hsuffixes.map fun s t h => (String.append_right_inj e.aliasName).1 h

theorem nodup_mutationNames (e : Entity) : e.mutationNames.Nodup := by
  have hsuffixes : mutationSuffixes.Nodup := by decide
  exact hsuffixes.map fun s t h => (String.append_right_inj e.aliasName).1 h

end EntityGraph.Entity
