import EntityGraph.Proofs.Filter.Meaning

/-!
The form of filters that are made of arguments. Whatever an argument writes (nulls, empty lists,
single objects, joins inside joins), its filter is in normal form at every depth: no conjunction has
fewer than two children or one that lets every record pass, no disjunction is empty, and every field
compares as its entity says. Joining such filters leads to such a filter, which is the trivial one
just when all of them are.
-/

namespace EntityGraph

/-! ### Normal form -/

/-- **A filter is in normal form**: its conjunctions have at least two children, which all restrict,
its disjunctions have at least one child, and its fields compare by their own kinds. -/
inductive Filter.Normal (ks : FieldKinds) : Filter → Prop
  | all : Normal ks .all
  | and {fs : List Filter} (hlength : 2 ≤ fs.length) (hrestrict : ∀ f ∈ fs, f.isAll = false)
      (h : ∀ f ∈ fs, Normal ks f) : Normal ks (.and fs)
  | or {fs : List Filter} (hlength : 1 ≤ fs.length) (h : ∀ f ∈ fs, Normal ks f) :
      Normal ks (.or fs)
  | field (name : String) (c : Condition) : Normal ks (.field name c (ks.kind name))

namespace Filter

variable {ks : FieldKinds} {fs : List Filter}

/-- A conjunction leaves out what does not restrict, and stands only around two filters or more. -/
theorem Normal.conj (h : ∀ f ∈ fs, f.Normal ks) : (conj fs).Normal ks := by
  have hmem : ∀ f ∈ restricting fs, f.isAll = false ∧ f.Normal ks := by
    intro f hf
    obtain ⟨hfs, hrestrict⟩ := mem_restricting.1 hf
    exact ⟨hrestrict, h f hfs⟩
  rw [Filter.conj]
  cases hfs : restricting fs with
  | nil => exact .all
  | cons f gs =>
    rw [hfs] at hmem
    cases gs with
    | nil => exact (hmem f List.mem_cons_self).2
    | cons g gs =>
      apply Normal.and
      · simp
      · exact fun f hf => (hmem f hf).1
      · exact fun f hf => (hmem f hf).2

theorem Normal.disjunction (h : ∀ f ∈ fs, f.Normal ks) :
    ∀ f ∈ Argument.disjunction fs, f.Normal ks := by
  cases fs with
  | nil => simp [Argument.disjunction]
  | cons g gs =>
    intro f hf
    obtain rfl := List.mem_singleton.1 hf
    exact .or (by simp) h

/-- A conjunction is trivial just when all its members are. -/
theorem isAll_conj : (conj fs).isAll = true ↔ ∀ f ∈ fs, f.isAll = true := by
  have hnil : restricting fs = [] ↔ ∀ f ∈ fs, f.isAll = true := by
    simp [restricting, List.filter_eq_nil_iff]
  rw [← hnil, conj]
  cases hfs : restricting fs with
  | nil => simp [isAll]
  | cons f gs =>
    have hf : f.isAll = false := (mem_restricting.1 (hfs ▸ List.mem_cons_self)).2
    cases gs with
    | nil => simp [hf]
    | cons g gs => simp [isAll]

end Filter

/-! ### Filters of arguments -/

namespace Argument

variable {ks : FieldKinds}

theorem operatorFilters_normal {field : String} {operators : List (String × Value)}
    {fs : List Filter} (h : operatorFilters field (ks.kind field) operators = .ok fs) :
    ∀ f ∈ fs, f.Normal ks := by
  induction operators generalizing fs with
  | nil =>
    obtain rfl := Except.ok.inj h
    simp
  | cons o operators ih =>
    rw [operatorFilters] at h
    split at h
    · cases h
    · rename_i c _
      obtain ⟨gs, hrest, rfl⟩ := exceptMap_eq_ok_iff.1 h
      cases c with
      | none => exact ih hrest
      | some c => exact List.forall_mem_cons.2 ⟨.field field c, ih hrest⟩

theorem fieldFilters_normal {field : String} {v : Value} {fs : List Filter}
    (h : fieldFilters ks field v = .ok fs) : ∀ f ∈ fs, f.Normal ks := by
  cases v with
  | null =>
    obtain rfl := Except.ok.inj h
    simp
  | object operators => exact operatorFilters_normal h
  | bool | int | float | str | item | bytes | list => cases h

mutual

/-- The filter of an argument is in normal form. Objects, their entries, lists and their items are
read by functions that call each other, so this is shown of all of them at once. -/
theorem filter_normal : ∀ {v : Value} {f : Filter}, filter ks v = .ok f → f.Normal ks
  | .null, f, h => by
    obtain rfl := Except.ok.inj h
    exact .all
  | .object es, f, h => by
    rw [filter] at h
    obtain ⟨ps, hparts, rfl⟩ := exceptMap_eq_ok_iff.1 h
    exact .conj (filterParts_normal hparts)
  | .bool _, _, h | .int _, _, h | .float _, _, h | .str _, _, h | .item _, _, h
  | .bytes _, _, h | .list _, _, h => by simp [filter] at h

theorem filterParts_normal : ∀ {es : List (String × Value)} {ps : List Filter},
    filterParts ks es = .ok ps → ∀ p ∈ ps, p.Normal ks
  | [], ps, h => by
    obtain rfl := Except.ok.inj h
    simp
  | (key, v) :: es, ps, h => by
    rw [filterParts] at h
    split at h
    · cases h
    · rename_i part hpart
      obtain ⟨qs, hrest, rfl⟩ := exceptMap_eq_ok_iff.1 h
      have hentry : ∀ p ∈ part, p.Normal ks := by
        by_cases hand : key = andKey
        · rw [if_pos hand] at hpart
          obtain ⟨fs, hlist, rfl⟩ := exceptMap_eq_ok_iff.1 hpart
          exact List.forall_mem_singleton.2 (.conj (filterList_normal hlist))
        by_cases hor : key = orKey
        · rw [if_neg hand, if_pos hor] at hpart
          obtain ⟨fs, hlist, rfl⟩ := exceptMap_eq_ok_iff.1 hpart
          exact .disjunction (filterList_normal hlist)
        · rw [if_neg hand, if_neg hor] at hpart
          exact fieldFilters_normal hpart
      exact List.forall_mem_append.2 ⟨hentry, filterParts_normal hrest⟩

theorem filterList_normal : ∀ {v : Value} {fs : List Filter},
    filterList ks v = .ok fs → ∀ f ∈ fs, f.Normal ks
  | .null, fs, h => by
    obtain rfl := Except.ok.inj h
    simp
  | .list vs, fs, h => filterItems_normal h
  | .object es, fs, h => by
    rw [filterList] at h
    obtain ⟨ps, hparts, rfl⟩ := exceptMap_eq_ok_iff.1 h
    exact List.forall_mem_singleton.2 (.conj (filterParts_normal hparts))
  | .bool _, _, h | .int _, _, h | .float _, _, h | .str _, _, h | .item _, _, h
  | .bytes _, _, h => by simp [filterList] at h

theorem filterItems_normal : ∀ {vs : List Value} {fs : List Filter},
    filterItems ks vs = .ok fs → ∀ f ∈ fs, f.Normal ks
  | [], fs, h => by
    obtain rfl := Except.ok.inj h
    simp
  | v :: vs, fs, h => by
    rw [filterItems] at h
    split at h
    · cases h
    · rename_i f hf
      obtain ⟨gs, hrest, rfl⟩ := exceptMap_eq_ok_iff.1 h
      exact List.forall_mem_cons.2 ⟨filter_normal hf, filterItems_normal hrest⟩

end

/-- **Filters are in normal form.** The filter of an argument that is accepted is in normal form,
however the argument writes what does not restrict. Filters in normal form are joined to one that is
in normal form again; joined filters are the filter that lets every record pass just when each of
them is, and a record passes them together just when it passes each of them. -/
theorem filters_in_normal_form (ks : FieldKinds) :
    (∀ v f, filter ks v = .ok f → f.Normal ks) ∧
    ∀ fs : List Filter,
      ((∀ f ∈ fs, f.Normal ks) → (Filter.conj fs).Normal ks) ∧
      ((Filter.conj fs).isAll = true ↔ ∀ f ∈ fs, f.isAll = true) ∧
      ∀ record, (Filter.conj fs).passes record = true ↔ ∀ f ∈ fs, f.passes record = true := by
  constructor
  · intro v f h
    exact filter_normal h
  · intro fs
    refine ⟨Filter.Normal.conj, Filter.isAll_conj, ?_⟩
    intro record
    exact Filter.passes_conj

/-- A search that joins empty objects, nulls and empty lists with two conditions. -/
theorem filters_in_normal_form_search :
    let search : Value := .object
      [ ("AND", .list [.object [], .null, .object [("price", .object [("lte", .int 10)])]]),
        ("OR", .list
          [ .object [("OR", .list []), ("AND", .null)],
            .object [("due", .object [("eq", .str "2024-01-01T01:00:00+01:00"), ("gt", .null)])] ]),
        ("color", .null) ]
    let price := Filter.field "price" (.lte (.int 10)) .plain
    let due := Filter.field "due" (.eq (.str "2024-01-01T01:00:00+01:00")) .timestamp
    let f := Filter.and [price, .or [.all, due]]
    filter ⟨["due"]⟩ search = .ok f ∧ f.Normal ⟨["due"]⟩ ∧
      (∀ g ∈ [.all, f], g.Normal ⟨["due"]⟩) ∧ (Filter.conj [.all, f]).Normal ⟨["due"]⟩ := by
  intro search price due f
  obtain ⟨hread, hjoin⟩ := filters_in_normal_form ⟨["due"]⟩
  have hsearch : filter ⟨["due"]⟩ search = .ok f := rfl
  have hf : f.Normal ⟨["due"]⟩ := hread search f hsearch
  have hmembers : ∀ g ∈ [.all, f], g.Normal ⟨["due"]⟩ := by
    intro g hg
    rcases List.mem_pair.1 hg with rfl | rfl
    · exact .all
    · exact hf
  exact ⟨hsearch, hf, hmembers, (hjoin [.all, f]).1 hmembers⟩

end Argument

end EntityGraph
