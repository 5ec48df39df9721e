import EntityGraph.Proofs.Argument.Conforms
import EntityGraph.Proofs.Compile.Separation

/-!
Three views of a field to filter by: the operator input that the filter input gives it, how its
values compare, and the type that the persisted type of the entity gives it. Operators on timestamps
go with fields of timestamps, whatever arrays are around them. Values compare by instant for just
these fields, with one exception: an identifier that is declared as a date is published as an
identifier like any other, but compares by instant.
-/

namespace EntityGraph

/-! ### What is finished for a demand -/

namespace Consistent

variable {x : CompileContext} {P : Demand → Prop} {r : TypeRegistry} {q : Demand} {b : Blueprint}
  {name : String} {s : Signature}

/-- A finished input has the outline of the signature that its name is reserved for. -/
theorem outline_of_input (h : Consistent x P r) (hs : r.Reserved name s) {i : InputType}
    (hi : Fields.get? r.inputs name = some i) : i.outline = s.outline name ∧ s.Sound name := by
  obtain ⟨q, b, -, hdone, rfl, hdef⟩ := h.inputs _ (Fields.mem_of_get? hi)
  obtain rfl : b.signature = s :=
    Signature.fingerprint_injective (Option.some.inj (hdone.reserved.symm.trans hs))
  have houtline := (Demand.outline_of_blueprint hdone.blueprint).1
  rw [hdef] at houtline
  exact ⟨houtline, hdone.sound⟩

/-- A finished object has the outline of the signature that its name is reserved for. -/
theorem outline_of_object (h : Consistent x P r) (hs : r.Reserved name s) {o : ObjectType}
    (ho : Fields.get? r.objects name = some o) : o.outline = s.outline name ∧ s.Sound name := by
  obtain ⟨q, b, -, hdone, rfl, hdef⟩ := h.objects _ (Fields.mem_of_get? ho)
  obtain rfl : b.signature = s :=
    Signature.fingerprint_injective (Option.some.inj (hdone.reserved.symm.trans hs))
  have houtline := (Demand.outline_of_blueprint hdone.blueprint).1
  rw [hdef] at houtline
  exact ⟨houtline, hdone.sound⟩

/-- A demand that is answered, and whose name was reserved before, finds it reserved for the
same. -/
theorem reserved_of_answered (h : Consistent x (fun _ => True) r) (hb : q.blueprint? x = some b)
    (hok : (x.answer q r).1.isOk = true) (hname : r.contains b.name = true) :
    r.Reserved b.name b.signature := by
  have hserves := answer_serves_all q h
  cases ha : (x.answer q r).1 with
  | error e =>
    rw [ha] at hok
    exact absurd hok (by simp [Except.isOk, Except.toBool])
  | ok t =>
    obtain ⟨-, -, hserved⟩ := hserves.ok t ha
    obtain ⟨f, hf⟩ := Option.isSome_iff_exists.1 hname
    -- what was reserved before is what the answer finds
    have hkept := hserves.within _ _ hf
    rw [hserved.reserved_of_blueprint hb] at hkept
    exact hf.trans hkept.symm

end Consistent

/-! ### Fields of one entity -/

/-- The identifier of the entity is declared as a property, as a date under any number of arrays. -/
def Entity.DatesId (e : Entity) : Prop :=
  ∃ t, (idField, t) ∈ e.propertyTypes ∧ t.scalarLeaf? = some .date

namespace Entity

variable {e : Entity} {field op : String}

theorem mem_dataTypes_iff {t : PropertyType} :
    (field, t) ∈ e.dataTypes ↔ (field, t) ∈ e.propertyTypes ∧ field ≠ idField := by
  simp [dataTypes]

/-- A field to filter by is the identifier, or a property with a scalar under its arrays. -/
theorem mem_filterFields_iff :
    (field, op) ∈ e.filterFields ↔ (field = idField ∧ op = idFilterInput) ∨
      ∃ t k, (field, t) ∈ e.dataTypes ∧ t.scalarLeaf? = some k ∧ op = operatorInputName k := by
  unfold filterFields
  rw [List.mem_cons, Prod.mk.injEq, List.mem_filterMap]
  refine or_congr_right ⟨?_, ?_⟩
  · rintro ⟨⟨f, t⟩, ht, hmap⟩
    obtain ⟨k, hk, hpair⟩ := Option.map_eq_some_iff.1 hmap
    obtain ⟨rfl, rfl⟩ := Prod.mk.inj hpair
    exact ⟨t, k, ht, hk, rfl⟩
  · rintro ⟨t, k, ht, hk, rfl⟩
    exact ⟨(field, t), ht, by simp [hk]⟩

end Entity

/-- A field compares by instant where a property of its name is a date under arrays. -/
theorem FieldKinds.kind_eq_timestamp_iff {e : Entity} {field : String} :
    (FieldKinds.ofEntity e).kind field = .timestamp ↔
      ∃ t, (field, t) ∈ e.propertyTypes ∧ t.scalarLeaf? = some .date := by
  have hmem : (FieldKinds.ofEntity e).timestamps.contains field = true ↔
      ∃ t, (field, t) ∈ e.propertyTypes ∧ t.scalarLeaf? = some .date := by
    simp [FieldKinds.ofEntity]
  unfold FieldKinds.kind
  rw [← hmem]
  split <;> simp_all

theorem operatorInputName_eq_iff {k : ScalarKind} :
    operatorInputName k = "DateTimeFilter" ↔ k = .date := by
  cases k <;> simp [operatorInputName]

theorem ScalarKind.typeName_eq_iff {k : ScalarKind} : k.typeName = "DateTime" ↔ k = .date := by
  cases k <;> simp [typeName, stringScalar, floatScalar, booleanScalar, dateTimeScalar]

namespace Entity

variable {e : Entity} {field op : String}

/-- **How a field compares goes with its operator input**, unless it is an identifier that is
declared as a date. -/
theorem kind_iff_of_mem_filterFields
    (hdistinct : (e.filterFields.map Prod.fst).Nodup) (h : (field, op) ∈ e.filterFields) :
    ((FieldKinds.ofEntity e).kind field = .timestamp ↔ op = "DateTimeFilter") ↔
      ¬ (field = idField ∧ e.DatesId) := by
  rw [FieldKinds.kind_eq_timestamp_iff]
  rcases mem_filterFields_iff.1 h with ⟨rfl, rfl⟩ | ⟨t, k, ht, hk, rfl⟩
  · have hop : idFilterInput ≠ "DateTimeFilter" := by decide
    simp [hop, DatesId]
  · have hne : field ≠ idField := (mem_dataTypes_iff.1 ht).2
    rw [operatorInputName_eq_iff]
    refine iff_of_true ⟨?_, ?_⟩ fun hid => hne hid.1
    · rintro ⟨t', ht', hdate⟩
      -- a name is filtered by once, so that the date is what the operators are for
      have hmem : (field, operatorInputName .date) ∈ e.filterFields :=
        mem_filterFields_iff.2 (.inr ⟨t', .date, mem_dataTypes_iff.2 ⟨ht', hne⟩, hdate, rfl⟩)
      have hsame := List.inj_on_of_nodup_map hdistinct h hmem rfl
      exact operatorInputName_eq_iff.1 (Prod.mk.inj hsame).2
    · rintro rfl
      exact ⟨t, (mem_dataTypes_iff.1 ht).1, hk⟩

/-- **A field to filter by is a field of the persisted type**, with a timestamp at the bottom if it
has the operators on timestamps. -/
theorem exists_outline_of_mem_filterFields (h : (field, op) ∈ e.filterFields) (u : TypeUse)
    (name : String) :
    ∃ t c, (field, t, c) ∈ (u.entitySignature e.aliasName e.persistedFields).outline name ∧
      (op = "DateTimeFilter" ↔ t.base = "DateTime") := by
  rw [u.outline_entitySignature]
  rcases mem_filterFields_iff.1 h with ⟨rfl, rfl⟩ | ⟨t, k, ht, hk, rfl⟩
  · exact ⟨.named "ID", false, List.mem_cons_self, by decide⟩
  · obtain ⟨ht, hne⟩ := mem_dataTypes_iff.1 ht
    have hfield : (field, ProjectedField.plain t) ∈ e.persistedFields := List.mem_map_of_mem ht
    have hmember : (field, ProjectedField.plain t) ∈ Compile.entityMembers e.persistedFields :=
      List.mem_filter.2 ⟨hfield, by simpa using hne⟩
    refine ⟨u.refTo (name ++ field) t, _,
      List.mem_cons_of_mem _ (List.mem_map_of_mem (List.mem_map_of_mem hmember)), ?_⟩
    rw [TypeUse.base_refTo_of_scalarLeaf hk, operatorInputName_eq_iff, ScalarKind.typeName_eq_iff]

end Entity

/-! ### The compiled types -/

/-- **The views of a field to filter by agree, but for dated identifiers.** Let the filter input of
an entity and its persisted type be finished after any demands, answered or not. Then every field of
the input, beside the lists of filters, is a field of the type, and it has the operators on
timestamps just when it is published as a timestamp, inside any lists. Its values compare by instant
in the same cases, unless it is the identifier and the entity declares this as a date: such an
identifier has the operators of identifiers, is published as one, and compares by instant. -/
theorem views_agree_unless_dated (x : CompileContext) (qs : List Demand) {e : Entity}
    {i : InputType} {o : ObjectType}
    (hfilter : (x.answer (.filter e) (x.session qs .empty).2).1.isOk = true)
    (hi : Fields.get? (x.session qs .empty).2.inputs (e.aliasName ++ "EntityFilter") = some i)
    (htype : (x.answer (.entity (.output .entityType) e) (x.session qs .empty).2).1.isOk = true)
    (ho : Fields.get? (x.session qs .empty).2.objects (e.aliasName ++ "Entity") = some o) :
    ∀ f ∈ i.fields, f.name ≠ "AND" → f.name ≠ "OR" →
      (∃ g ∈ o.fields, g.name = f.name ∧
        (f.type = .named "DateTimeFilter" ↔ g.type.base = "DateTime")) ∧
      (((FieldKinds.ofEntity e).kind f.name = .timestamp ↔ f.type = .named "DateTimeFilter") ↔
        ¬ (f.name = "_id" ∧ ∃ t, ("_id", t) ∈ e.propertyTypes ∧ t.scalarLeaf? = some .date)) := by
  intro f hf hand hor
  have hr := session_consistent x qs
  rw [← e.filterInputName_eq] at hi
  rw [← typeName_entityType] at ho
  -- the two types are those that the entity asks for
  obtain ⟨hinput, hsound⟩ := hr.outline_of_input (hr.reserved_of_answered (b := e.filterBlueprint)
    rfl hfilter
    (hr.parts.contains_of_finished (.inr (List.mem_map_of_mem (Fields.mem_of_get? hi)))))
    hi
  obtain ⟨hobject, -⟩ := hr.outline_of_object (hr.reserved_of_answered
    (b := x.entityBlueprint (.output .entityType) e) rfl htype
    (hr.parts.contains_of_finished (.inl (List.mem_map_of_mem (Fields.mem_of_get? ho))))) ho
  have hdistinct : (e.filterFields.map Prod.fst).Nodup := by
    have hnames := hsound.distinct
    simp only [Signature.outline, List.map_append, List.map_map] at hnames
    exact hnames.of_append_left
  have hmem : f.outline ∈ (Signature.filterInput e.filterFields).outline e.filterInputName :=
    hinput ▸ List.mem_map_of_mem hf
  rcases List.mem_append.1 hmem with hown | hjoined
  · obtain ⟨⟨field, op⟩, hfield, hout⟩ := List.mem_map.1 hown
    obtain ⟨rfl, htyped⟩ := Prod.mk.inj hout
    have hop : f.type = .named "DateTimeFilter" ↔ op = "DateTimeFilter" := by
      rw [← (Prod.mk.inj htyped).1, TypeRef.named.injEq]
    rw [hop]
    refine ⟨?_, Entity.kind_iff_of_mem_filterFields hdistinct hfield⟩
    obtain ⟨t, c, hshown, hbase⟩ := Entity.exists_outline_of_mem_filterFields hfield
      (.output .entityType) (OutputOptions.entityType.typeName e.aliasName)
    have hshown' : (f.name, t, c) ∈ o.outline := hobject ▸ hshown
    obtain ⟨g, hg, hgout⟩ := List.mem_map.1 hshown'
    obtain ⟨hname, htype⟩ := Prod.mk.inj hgout
    exact ⟨g, hg, hname, by rw [hbase, ← (Prod.mk.inj htype).1]⟩
  · -- the lists of filters have other names
    rcases List.mem_pair.1 hjoined with hout | hout
    · exact absurd (congrArg Prod.fst hout) hand
    · exact absurd (congrArg Prod.fst hout) hor

/-- Events have dates, and one for an identifier. Both compare by instant, but the identifier has
the operators of identifiers. -/
theorem views_agree_unless_dated_event :
    let e : Entity := { Entity.bare "event" with
      properties := [("_id", .plain (.scalar .date)), ("at", .plain (.array (.scalar .date)))] }
    let x : CompileContext := ⟨⟨[e]⟩, .empty⟩
    let r := (x.session [.filter e, .entity (.output .entityType) e] .empty).2
    (x.answer (.filter e) r).1.isOk = true ∧
      (x.answer (.entity (.output .entityType) e) r).1.isOk = true ∧
      ∃ i o, Fields.get? r.inputs ("event" ++ "EntityFilter") = some i ∧
        Fields.get? r.objects ("event" ++ "Entity") = some o ∧
        i.fields.map InputField.name = ["_id", "at", "AND", "OR"] ∧
        (∀ f ∈ i.fields, f.name = "at" →
          ((FieldKinds.ofEntity e).kind "at" = .timestamp ↔ f.type = .named "DateTimeFilter")) ∧
        ∀ f ∈ i.fields, f.name = "_id" →
          ¬ ((FieldKinds.ofEntity e).kind "_id" = .timestamp ↔
            f.type = .named "DateTimeFilter") := by
  intro e x r
  have hfilter : (x.answer (.filter e) r).1.isOk = true := by decide +kernel
  have htype : (x.answer (.entity (.output .entityType) e) r).1.isOk = true := by decide +kernel
  have hnames : (Fields.get? r.inputs ("event" ++ "EntityFilter")).map
      (fun i => i.fields.map InputField.name) = some ["_id", "at", "AND", "OR"] := by
    decide +kernel
  obtain ⟨i, hi, hfields⟩ := Option.map_eq_some_iff.1 hnames
  obtain ⟨o, ho⟩ : ∃ o, Fields.get? r.objects ("event" ++ "Entity") = some o :=
    Option.isSome_iff_exists.1 (by decide +kernel)
  refine ⟨hfilter, htype, i, o, hi, ho, hfields, fun f hf hname => ?_, fun f hf hname => ?_⟩ <;>
    have hviews := (views_agree_unless_dated x _ hfilter hi htype ho f hf
      (by rw [hname]; decide) (by rw [hname]; decide)).2 <;>
    rw [hname] at hviews
  · exact hviews.2 fun hid => absurd hid.1 (by decide)
  · exact fun hagree => hviews.1 hagree ⟨rfl, .scalar .date, List.mem_cons_self, rfl⟩

end EntityGraph
