import EntityGraph.Proofs.Argument.Conforms
import EntityGraph.Proofs.Filter.Meaning

/-!
What the compiled inputs admit. Filter and sort inputs say which values a caller may send, and
arguments are read by rules of their own. A value that conforms to the inputs is never refused:
filters are read down to any depth, and sort keys come in the order they are written.
-/

namespace EntityGraph

/-! ### Fields of filter inputs -/

theorem operatorInputs_readable : ∀ op ∈ operatorInputs, ∀ f ∈ op.fields,
    f.name ∈ Argument.operatorNames := by decide

/-- Every field to filter by has a shared operator input. -/
theorem Entity.exists_operatorInput {e : Entity} {p : String × String} (hp : p ∈ e.filterFields) :
    ∃ op ∈ operatorInputs, op.name = p.2 := by
  have hkinds : ∀ k, operatorInputName k ∈ operatorInputs.map InputType.name := by
    intro k
    cases k <;> decide
  refine List.mem_map.1 ?_
  rcases List.mem_cons.1 hp with rfl | hp
  · decide
  · obtain ⟨q, -, hq⟩ := List.mem_filterMap.1 hp
    obtain ⟨k, -, rfl⟩ := Option.map_eq_some_iff.1 hq
    exact hkinds k

/-- A field of a filter input holds a list of filters, or the operators of one field. -/
theorem filterInput_field {e : Entity} {i : InputType} {name : String}
    (hi : i.outline = (Signature.filterInput e.filterFields).outline name)
    (hdistinct : (((Signature.filterInput e.filterFields).outline name).map Prod.fst).Nodup)
    {g : InputField} (hg : g ∈ i.fields) :
    ((g.name = Argument.andKey ∨ g.name = Argument.orKey) ∧ g.type = .nonNullList name) ∨
      (¬ (g.name = Argument.andKey ∨ g.name = Argument.orKey) ∧
        ∃ op ∈ operatorInputs, g.type = .named op.name) := by
  have hmem : g.outline ∈ (Signature.filterInput e.filterFields).outline name :=
    hi ▸ List.mem_map_of_mem hg
  rw [Signature.outline] at hmem hdistinct
  rw [List.map_append] at hdistinct
  rcases List.mem_append.1 hmem with hown | hjoined
  · refine .inr ⟨fun hkey => ?_, ?_⟩
    · -- a property is not named like what joins filters
      refine List.disjoint_of_nodup_append hdistinct (List.mem_map_of_mem hown) ?_
      rcases hkey with hkey | hkey <;>
        simp [InputField.outline, hkey, Argument.andKey, Argument.orKey]
    · obtain ⟨p, hp, hout⟩ := List.mem_map.1 hown
      obtain ⟨op, hop, hname⟩ := Entity.exists_operatorInput hp
      have htype : TypeRef.named p.2 = g.type := congrArg (fun o : FieldOutline => o.2.1) hout
      exact ⟨op, hop, by rw [← htype, hname]⟩
  · refine .inl ?_
    rcases List.mem_pair.1 hjoined with hout | hout
    · exact ⟨.inl (congrArg Prod.fst hout), congrArg (fun o : FieldOutline => o.2.1) hout⟩
    · exact ⟨.inr (congrArg Prod.fst hout), congrArg (fun o : FieldOutline => o.2.1) hout⟩

namespace Argument

variable {type? : String → Option TypeDef} {ks : FieldKinds} {e : Entity} {v : Value}

/-! ### Reading filters -/

theorem condition_ok {operator : String} (h : operator ∈ operatorNames) (operand : Value) :
    ∃ c, condition operator operand = .ok c := by
  unfold condition
  simp only [operatorNames, List.mem_cons, List.not_mem_nil, or_false] at h
  rcases h with rfl | rfl | rfl | rfl | rfl | rfl | rfl | rfl <;>
    by_cases hnull : operand.toJson.isNull = true <;> simp [hnull]

theorem operatorFilters_ok {field : String} {kind : ValueKind} {operators : List (String × Value)}
    (h : ∀ o ∈ operators, o.1 ∈ operatorNames) :
    ∃ fs, operatorFilters field kind operators = .ok fs := by
  induction operators with
  | nil => exact ⟨[], rfl⟩
  | cons o operators ih =>
    obtain ⟨ho, hrest⟩ := List.forall_mem_cons.1 h
    obtain ⟨c, hc⟩ := condition_ok ho o.2
    obtain ⟨fs, hfs⟩ := ih hrest
    rw [operatorFilters, hc, hfs]
    exact ⟨_, rfl⟩

theorem filterItems_ok {vs : List Value} (h : ∀ v ∈ vs, ∃ f, filter ks v = .ok f) :
    ∃ fs, filterItems ks vs = .ok fs := by
  induction vs with
  | nil => exact ⟨[], rfl⟩
  | cons v vs ih =>
    obtain ⟨⟨f, hf⟩, hrest⟩ := List.forall_mem_cons.1 h
    obtain ⟨fs, hfs⟩ := ih hrest
    rw [filterItems, hf, hfs]
    exact ⟨_, rfl⟩

/-- An object is read when every entry is: lists of filters where filters are joined, and
operators on a field elsewhere. -/
theorem filterParts_ok {fs : List (String × Value)}
    (h : ∀ f ∈ fs, if f.1 = andKey ∨ f.1 = orKey then ∃ gs, filterList ks f.2 = .ok gs
      else ∃ gs, fieldFilters ks f.1 f.2 = .ok gs) :
    ∃ ps, filterParts ks fs = .ok ps := by
  induction fs with
  | nil => exact ⟨[], rfl⟩
  | cons f fs ih =>
    obtain ⟨hf, hrest⟩ := List.forall_mem_cons.1 h
    obtain ⟨ps, hps⟩ := ih hrest
    rw [filterParts, hps]
    by_cases hand : f.1 = andKey
    · obtain ⟨gs, hgs⟩ := (if_pos (.inl hand)).mp hf
      exact ⟨_, by rw [if_pos hand, hgs]; rfl⟩
    by_cases hor : f.1 = orKey
    · obtain ⟨gs, hgs⟩ := (if_pos (.inr hor)).mp hf
      exact ⟨_, by rw [if_neg hand, if_pos hor, hgs]; rfl⟩
    · obtain ⟨gs, hgs⟩ := (if_neg (not_or.2 ⟨hand, hor⟩)).mp hf
      exact ⟨_, by rw [if_neg hand, if_neg hor, hgs]; rfl⟩

/-- The operators on a field are read. -/
theorem fieldFilters_ok (ht : SharesTypes type?) {op : InputType} (hop : op ∈ operatorInputs)
    (h : Conforms type? (.named op.name) v) (field : String) :
    ∃ fs, fieldFilters ks field v = .ok fs := by
  have hread : ∀ i, type? op.name = some (.input i) → ∃ fs, fieldFilters ks field v = .ok fs := by
    intro i hi
    obtain rfl := TypeDef.input.inj (ht.operators op hop _ hi rfl)
    rcases h.of_input hi with rfl | ⟨fs, rfl, -, hfs⟩
    · exact ⟨[], rfl⟩
    · refine operatorFilters_ok fun f hf => ?_
      obtain ⟨g, hg, hname, -⟩ := hfs f hf
      exact hname ▸ operatorInputs_readable _ hop g hg
  cases h with
  | null => exact ⟨[], rfl⟩
  | leaf hd hin hout =>
    obtain rfl := ht.operators op hop _ hd hin
    cases hout
  | object hi => exact hread _ hi

/-- A list of filters is read when all that it lists are. -/
theorem filterList_ok {name : String} {i : InputType} (hi : type? name = some (.input i))
    (h : Conforms type? (.nonNullList name) v)
    (hlisted : ∀ w ∈ listed v, Conforms type? (.named name) w → ∃ f, filter ks w = .ok f) :
    ∃ fs, filterList ks v = .ok fs := by
  rcases h.of_nonNullList with rfl | ⟨vs, rfl, hitems⟩ | hsingle
  · exact ⟨[], rfl⟩
  · exact filterItems_ok fun w hw => hlisted w hw (hitems w hw)
  · rcases hsingle.of_input hi with rfl | ⟨fs, rfl, -⟩
    · exact ⟨[], rfl⟩
    · obtain ⟨f, hf⟩ := hlisted _ List.mem_cons_self hsingle
      rw [filterList_object, hf]
      exact ⟨[f], rfl⟩

/-- **Filters that conform are read.** -/
theorem filter_ok (ht : SharesTypes type?)
    (hself : Shows type? e.filterInputName (.filterInput e.filterFields))
    (h : Conforms type? (.named e.filterInputName) v) : ∃ f, filter ks v = .ok f := by
  obtain ⟨i, hi, houtline, hdistinct⟩ := hself
  -- the filters listed in an object stand two levels below it, so the induction is on the size
  induction hn : sizeOf v using Nat.strongRecOn generalizing v with
  | ind n ih =>
    subst hn
    rcases h.of_input hi with rfl | ⟨fs, rfl, -, hfs⟩
    · exact ⟨.all, rfl⟩
    have hparts : ∃ ps, filterParts ks fs = .ok ps := by
      refine filterParts_ok fun f hf => ?_
      obtain ⟨g, hg, hname, hconforms⟩ := hfs f hf
      rw [← hname]
      rcases filterInput_field houtline hdistinct hg with ⟨hkey, htype⟩ | ⟨hkey, op, hop, htype⟩
      · rw [htype] at hconforms
        rw [if_pos hkey]
        exact filterList_ok hi hconforms fun w hw hc => ih _ (sizeOf_listed hf hw) hc rfl
      · rw [htype] at hconforms
        rw [if_neg hkey]
        exact fieldFilters_ok ht hop hconforms g.name
    obtain ⟨ps, hps⟩ := hparts
    rw [filter, hps]
    exact ⟨_, rfl⟩

/-! ### Reading sort keys -/

/-- The entries of an argument that are not null. -/
def given : Value → List (String × Value)
  | .object fs => fs.filter fun f => !f.2.isNull
  | _ => []

/-- How a direction is written. -/
def directionText : SortDirection → String
  | .ascending => "ASC"
  | .descending => "DESC"

/-- A sort key says what an entry of the argument does. -/
structure Keys (ks : FieldKinds) (f : String × Value) (k : SortKey) : Prop where
  field : k.field = f.1
  kind : k.kind = ks.kind f.1
  direction : f.2 = .item (directionText k.direction) ∨ f.2 = .str (directionText k.direction)

theorem fields_of_keys {fs : List (String × Value)} {S : List SortKey}
    (h : List.Forall₂ (Keys ks) fs S) : S.map SortKey.field = fs.map Prod.fst := by
  induction h with
  | nil => rfl
  | cons hk _ ih => rw [List.map_cons, List.map_cons, hk.field, ih]

/-- A value of the directions is null or one of the two. -/
theorem direction_of_conforms (ht : SharesTypes type?)
    (h : Conforms type? (.named sortDirectionEnum) v) :
    v = .null ∨ ∃ d, v = .item (directionText d) ∨ v = .str (directionText d) := by
  cases h with
  | null => exact .inl rfl
  | leaf hd hin _ hv =>
    obtain rfl := ht.directions _ hd hin
    refine .inr ?_
    cases v with
    | item n | str n =>
      have hn : "ASC" = n ∨ "DESC" = n := by
        simpa [Schema.sortDirectionType, TypeDef.acceptsLeaf, Schema.ascendingItem,
          Schema.descendingItem] using hv
      rcases hn with rfl | rfl
      · exact ⟨.ascending, by simp [directionText]⟩
      · exact ⟨.descending, by simp [directionText]⟩
    | null | bool | int | float | bytes | list | object => cases hv
  | object hi => cases ht.directions _ hi rfl

theorem direction_ok {field : String} {d : SortDirection}
    (h : v = .item (directionText d) ∨ v = .str (directionText d)) :
    direction field v = .ok d := by
  rcases h with rfl | rfl <;> cases d <;> rfl

/-- The entries that are not null are read one after the other. -/
theorem sortKeys_ok {fs : List (String × Value)}
    (h : ∀ f ∈ fs, f.2 = .null ∨ ∃ d, f.2 = .item (directionText d) ∨ f.2 = .str (directionText d)) :
    ∃ S, sortKeys ks fs = .ok S ∧ List.Forall₂ (Keys ks) (given (.object fs)) S := by
  induction fs with
  | nil => exact ⟨[], rfl, .nil⟩
  | cons f fs ih =>
    obtain ⟨hf, hrest⟩ := List.forall_mem_cons.1 h
    obtain ⟨S, hS, hkeys⟩ := ih hrest
    obtain ⟨field, v⟩ := f
    rcases hf with hnull | ⟨d, hd⟩
    · obtain rfl : v = .null := hnull
      exact ⟨S, hS, hkeys⟩
    · have hnull : v.isNull = false := by rcases hd with rfl | rfl <;> rfl
      refine ⟨⟨field, d, ks.kind field⟩ :: S, ?_, ?_⟩
      · rw [sortKeys, hnull, direction_ok hd, hS]
        rfl
      · have hgiven : given (.object ((field, v) :: fs)) = (field, v) :: given (.object fs) := by
          simp [given, hnull]
        rw [hgiven]
        exact .cons ⟨rfl, rfl, hd⟩ hkeys

/-- **Sort keys that conform are read**, in the order they are written. -/
theorem sort_ok (ht : SharesTypes type?)
    (hself : Shows type? e.sortInputName (.sortInput e.sortFields))
    (h : Conforms type? (.named e.sortInputName) v) :
    ∃ S, sort ks v = .ok S ∧ List.Forall₂ (Keys ks) (given v) S ∧ (S.map SortKey.field).Nodup := by
  obtain ⟨i, hi, houtline, -⟩ := hself
  rcases h.of_input hi with rfl | ⟨fs, rfl, hdistinct, hfs⟩
  · exact ⟨[], rfl, .nil, .nil⟩
  have hdirections : ∀ f ∈ fs, f.2 = .null ∨
      ∃ d, f.2 = .item (directionText d) ∨ f.2 = .str (directionText d) := by
    intro f hf
    obtain ⟨g, hg, -, hconforms⟩ := hfs f hf
    have hmem : g.outline ∈ (Signature.sortInput e.sortFields).outline e.sortInputName :=
      houtline ▸ List.mem_map_of_mem hg
    obtain ⟨k, -, hout⟩ := List.mem_map.1 hmem
    have htype : TypeRef.named sortDirectionEnum = g.type :=
      congrArg (fun o : FieldOutline => o.2.1) hout
    rw [← htype] at hconforms
    exact direction_of_conforms ht hconforms
  have hread : ∃ S, sortKeys ks fs = .ok S ∧ List.Forall₂ (Keys ks) (given (.object fs)) S :=
    sortKeys_ok hdirections
  obtain ⟨S, hS, hkeys⟩ := hread
  refine ⟨S, hS, hkeys, ?_⟩
  rw [fields_of_keys hkeys]
  exact hdistinct.sublist (List.filter_sublist.map _)

end Argument

/-! ### Compiled inputs -/

/-- **What the compiled inputs admit is read.** After any compilation in which all demands have
been answered, every value that conforms to the filter input of an entity is read as a filter,
whatever is nested in it; and every value that conforms to the sort input is read as the sort keys
of its entries that are not null, in the order they are written, each field once. -/
theorem admitted_arguments_read {x : CompileContext} {qs : List Demand}
    (hok : ∀ a ∈ (x.session qs .empty).1, a.isOk = true) (e : Entity) (ks : FieldKinds)
    (v : Value) :
    let types := (x.session qs .empty).2.valueType?
    (Demand.filter e ∈ qs → Conforms types (.named (e.aliasName ++ "EntityFilter")) v →
      ∃ F, Argument.filter ks v = .ok F) ∧
    (Demand.sort e ∈ qs → Conforms types (.named (e.aliasName ++ "EntitySort")) v →
      ∃ S, Argument.sort ks v = .ok S ∧
        S.map SortKey.field = (Argument.given v).map Prod.fst ∧ (S.map SortKey.field).Nodup ∧
        List.Forall₂ (Argument.Keys ks) (Argument.given v) S) := by
  intro types
  have hsettled := session_settled hok
  have hshares : SharesTypes types := TypeRegistry.valueType?_shares _
  have hserved : ∀ q ∈ qs, Served x (x.session qs .empty).2 q :=
    fun q hq => session_served hok (Met.of_mem hq)
  rw [← e.filterInputName_eq, ← e.sortInputName_eq]
  constructor
  · intro hfilter hv
    have hname : e.filterInputName ∉ Schema.commonNames :=
      e.filterInputName_eq ▸ append_notMem_commonNames (by decide) _
    have hself : Shows types e.filterInputName (.filterInput e.filterFields) :=
      TypeRegistry.shows_of_served hsettled (hserved _ hfilter) rfl rfl hname
    exact Argument.filter_ok hshares hself hv
  · intro hsort hv
    have hname : e.sortInputName ∉ Schema.commonNames :=
      e.sortInputName_eq ▸ append_notMem_commonNames (by decide) _
    have hself : Shows types e.sortInputName (.sortInput e.sortFields) :=
      TypeRegistry.shows_of_served hsettled (hserved _ hsort) rfl rfl hname
    obtain ⟨S, hS, hkeys, hnodup⟩ := Argument.sort_ok hshares hself hv
    exact ⟨S, hS, Argument.fields_of_keys hkeys, hnodup, hkeys⟩

/-- Tasks, with a title and tags. -/
def taskEntity : Entity :=
  { Entity.bare "task" with
    properties :=
      [("title", .plain (.scalar .string)), ("tags", .plain (.array (.scalar .string)))] }

/-- A search with single objects in place of lists, and an order with a key that is left out. -/
theorem admitted_arguments_read_tasks :
    let x : CompileContext := ⟨⟨[taskEntity]⟩, .empty⟩
    let qs := [Demand.filter taskEntity, .sort taskEntity]
    let types := (x.session qs .empty).2.valueType?
    let search : Value := .object
      [("title", .object [("eq", .null), ("in", .str "a")]),
        ("OR", .object [("AND", .list [.object [("tags", .null)]])])]
    let order : Value := .object [("title", .str "DESC"), ("_id", .null)]
    (∀ a ∈ (x.session qs .empty).1, a.isOk = true) ∧
      Conforms types (.named "taskEntityFilter") search ∧
      Conforms types (.named "taskEntitySort") order ∧
      (∃ F, Argument.filter .none search = .ok F) ∧
      ∃ S, Argument.sort .none order = .ok S ∧ S.map SortKey.field = ["title"] := by
  intro x qs types search order
  have hok : ∀ a ∈ (x.session qs .empty).1, a.isOk = true := by decide +kernel
  have hfilter : types "taskEntityFilter" = some (.input ⟨"taskEntityFilter",
      some "Filter for task records", [.plain "_id" (.named "IDFilter"),
        .plain "title" (.named "StringFilter"), .plain "tags" (.named "StringFilter"),
        .plain "AND" (.nonNullList "taskEntityFilter"),
        .plain "OR" (.nonNullList "taskEntityFilter")]⟩) :=
    TypeRegistry.valueType?_of_get? (by decide) (by decide +kernel)
  have hsort : types "taskEntitySort" = some (.input ⟨"taskEntitySort",
      some "Sort order; earlier keys take precedence",
      [.plain "_id" (.named "SortDirection"), .plain "title" (.named "SortDirection")]⟩) :=
    TypeRegistry.valueType?_of_get? (by decide) (by decide +kernel)
  have htitle : Conforms types (.named "StringFilter")
      (.object [("eq", .null), ("in", .str "a")]) :=
    .of_fields rfl (by decide) (by decide) (.cons ⟨rfl, .null rfl⟩
      (.cons ⟨rfl, .single rfl nofun (.leaf rfl rfl rfl rfl)⟩ .nil))
  have htags : Conforms types (.named "taskEntityFilter") (.object [("tags", .null)]) :=
    .of_fields hfilter (by decide) (by decide) (.cons ⟨rfl, .null rfl⟩ .nil)
  have hand : Conforms types (.named "taskEntityFilter")
      (.object [("AND", .list [.object [("tags", .null)]])]) :=
    .of_fields hfilter (by decide) (by decide) (.cons
      ⟨rfl, .items (List.forall_mem_singleton.2 (.nonNull rfl htags))⟩ .nil)
  have hsearch : Conforms types (.named "taskEntityFilter") search :=
    .of_fields hfilter (by decide) (by decide)
      (.cons ⟨rfl, htitle⟩ (.cons ⟨rfl, .single rfl nofun (.nonNull rfl hand)⟩ .nil))
  have horder : Conforms types (.named "taskEntitySort") order :=
    .of_fields hsort (by decide) (by decide)
      (.cons ⟨rfl, .leaf rfl rfl rfl rfl⟩ (.cons ⟨rfl, .null rfl⟩ .nil))
  have hread := (admitted_arguments_read hok taskEntity .none search).1 List.mem_cons_self hsearch
  obtain ⟨S, hS, hfields, -⟩ := (admitted_arguments_read hok taskEntity .none order).2
    (List.mem_cons_of_mem _ List.mem_cons_self) horder
  exact ⟨hok, hsearch, horder, hread, S, hS, hfields⟩

end EntityGraph
