import EntityGraph.Proofs.Compile.Kinds

/-!
What an entity can be filtered and sorted by, read off its persisted type. A field is one to filter
by when the type publishes it as a scalar inside any number of lists, and its operators are then
those of this scalar; it is one to sort by when it is published as a scalar and nothing else. Both
inputs have their fields once, in the order of the type.
-/

namespace EntityGraph

/-! ### Published scalars -/

/-- The scalars that fields are published as. -/
def scalarNames : List String := builtInScalars ++ [dateTimeScalar]

/-- The named type inside any number of lists. -/
def TypeRef.leaf? : TypeRef → Option String
  | .named n => some n
  | .list t => t.leaf?
  | .nonNull _ => none

theorem ScalarKind.typeName_mem (k : ScalarKind) : k.typeName ∈ scalarNames := by
  cases k <;> decide

/-- The names of persisted types, and of the shapes inside them, are those of no scalar. -/
theorem notMem_scalarNames (aliasName key : String) :
    OutputOptions.entityType.typeName aliasName ++ key ∉ scalarNames := by
  -- scalars are written without the first letter of the ending of persisted types
  have hscalars : ∀ s ∈ scalarNames, 'E' ∉ s.toList := by decide
  exact fun hmem => hscalars _ hmem (by simp [OutputOptions.typeName, OutputOptions.entityType])

section

variable {u : TypeUse} {name scalar : String} {t : PropertyType}

/-- A property is published as a scalar inside lists if it is one under as many arrays. -/
theorem TypeUse.leaf?_refTo_iff (hname : name ∉ scalarNames)
    (hu : ∀ a, u.typeName a ∉ scalarNames) (hs : scalar ∈ scalarNames) :
    (u.refTo name t).leaf? = some scalar ↔ ∃ k, t.scalarLeaf? = some k ∧ k.typeName = scalar := by
  induction t using PropertyType.induct with
  | scalar k =>
    rw [u.refTo_scalar]
    simp [TypeRef.leaf?, PropertyType.scalarLeaf?, PropertyType.scalarKind?]
  | array t ih => exact ih
  | shape fs =>
    have hne : name ≠ scalar := fun h => hname (h ▸ hs)
    simp [TypeUse.refTo, TypeRef.leaf?, PropertyType.scalarLeaf?, PropertyType.scalarKind?, hne]
  | reference a =>
    have hne : u.typeName a ≠ scalar := fun h => hu a (h ▸ hs)
    simp [TypeUse.refTo, TypeRef.leaf?, PropertyType.scalarLeaf?, PropertyType.scalarKind?, hne]

/-- A property is published as a scalar and nothing else if it is one. -/
theorem TypeUse.refTo_eq_named_iff (hname : name ∉ scalarNames)
    (hu : ∀ a, u.typeName a ∉ scalarNames) (hs : scalar ∈ scalarNames) :
    u.refTo name t = .named scalar ↔ ∃ k, t.scalarKind? = some k ∧ k.typeName = scalar := by
  cases t with
  | scalar k =>
    rw [u.refTo_scalar]
    simp [PropertyType.scalarKind?]
  | array t => simp [TypeUse.refTo, PropertyType.scalarKind?]
  | shape fs =>
    have hne : name ≠ scalar := fun h => hname (h ▸ hs)
    simp [TypeUse.refTo, PropertyType.scalarKind?, hne]
  | reference a =>
    have hne : u.typeName a ≠ scalar := fun h => hu a (h ▸ hs)
    simp [TypeUse.refTo, PropertyType.scalarKind?, hne]

end

/-! ### Operators -/

/-- The operands of an operator input are of a scalar, one by one or in lists. -/
def InputType.OperandsOf (op : InputType) (scalar : String) : Prop :=
  ∀ f ∈ op.fields, f.type.leaf? = some scalar

instance (op : InputType) (scalar : String) : Decidable (op.OperandsOf scalar) :=
  inferInstanceAs (Decidable (∀ f ∈ op.fields, f.type.leaf? = some scalar))

/-- The operator input of a name is the only one whose operands are of a scalar. -/
def Operates (name scalar : String) : Prop :=
  ∃ op ∈ operatorInputs, op.name = name ∧ op.OperandsOf scalar ∧
    ∀ op' ∈ operatorInputs, op'.OperandsOf scalar → op' = op

instance (name scalar : String) : Decidable (Operates name scalar) :=
  inferInstanceAs (Decidable (∃ op ∈ operatorInputs, _ ∧ _ ∧ ∀ op' ∈ operatorInputs, _ → _))

theorem operates_operatorInputName (k : ScalarKind) :
    Operates (operatorInputName k) k.typeName := by
  cases k <;> decide

theorem operates_idFilterInput : Operates idFilterInput idScalar := by decide

/-! ### The fields of an entity -/

namespace Entity

variable {e : Entity}

/-- The outline of the persisted type of an entity. -/
def persistedOutline (e : Entity) : List FieldOutline :=
  (idField, .named idScalar, false) :: e.dataTypes.map fun p =>
    (p.1, (TypeUse.output .entityType).refTo
      (OutputOptions.entityType.typeName e.aliasName ++ p.1) p.2, false)

theorem outline_entityType (e : Entity) :
    ((TypeUse.output .entityType).entitySignature e.aliasName e.persistedFields).outline
        ((TypeUse.output .entityType).typeName e.aliasName) = e.persistedOutline := by
  have hmembers : (Compile.entityMembers e.persistedFields).map
      (fun m => (m.1, m.2.type, m.2.isComputed)) = e.dataTypes.map fun p => (p.1, p.2, false) := by
    rw [Compile.entityMembers, persistedFields, dataTypes, List.filter_map, List.map_map]
    rfl
  rw [TypeUse.outline_entitySignature, hmembers, TypeUse.outlineOf, List.map_map]
  simp [persistedOutline, idScalar, TypeUse.typeName, Function.comp_def]

theorem names_persistedOutline (e : Entity) :
    e.persistedOutline.map Prod.fst = idField :: e.dataTypes.map Prod.fst := by
  simp [persistedOutline, Function.comp_def]

/-- The fields to filter by stand in the order of the type. -/
theorem names_filterFields_sublist (e : Entity) :
    (e.filterFields.map Prod.fst).Sublist (e.persistedOutline.map Prod.fst) := by
  have hnames : ∀ ps : List (String × PropertyType),
      (ps.filterMap fun p => p.2.scalarLeaf?.map fun k => (p.1, operatorInputName k)).map Prod.fst =
        (ps.filter fun p => p.2.scalarLeaf?.isSome).map Prod.fst := by
    intro ps
    induction ps with
    | nil => rfl
    | cons p ps ih => cases hk : p.2.scalarLeaf? <;> simp [hk, ih]
  rw [filterFields, List.map_cons, hnames, names_persistedOutline]
  exact (List.filter_sublist.map Prod.fst).cons_cons idField

/-- The fields to sort by stand in the order of the type. -/
theorem names_sortFields_sublist (e : Entity) :
    e.sortFields.Sublist (e.persistedOutline.map Prod.fst) := by
  rw [names_persistedOutline]
  exact (List.filter_sublist.map Prod.fst).cons_cons idField

theorem mem_persistedOutline_iff {f : FieldOutline} :
    f ∈ e.persistedOutline ↔ f = (idField, .named idScalar, false) ∨
      ∃ k t, (k, t) ∈ e.dataTypes ∧ f = (k, (TypeUse.output .entityType).refTo
        (OutputOptions.entityType.typeName e.aliasName ++ k) t, false) := by
  simp [persistedOutline, eq_comm]

section

variable {name scalar op : String} {t : TypeRef} {c : Bool}

/-- No persisted type has the name of a scalar. -/
theorem typeName_notMem_scalarNames (aliasName : String) :
    (TypeUse.output .entityType).typeName aliasName ∉ scalarNames := by
  have h := notMem_scalarNames aliasName ""
  rwa [String.append_empty] at h

/-- A field to filter by is published as the scalar that its operators are for. -/
theorem published_of_mem_filterFields (h : (name, op) ∈ e.filterFields) :
    ∃ t c s, (name, t, c) ∈ e.persistedOutline ∧ s ∈ scalarNames ∧ t.leaf? = some s ∧
      Operates op s := by
  rcases mem_filterFields_iff.1 h with ⟨rfl, rfl⟩ | ⟨t, k, ht, hk, rfl⟩
  · exact ⟨.named idScalar, false, idScalar, List.mem_cons_self, by decide, rfl,
      operates_idFilterInput⟩
  · refine ⟨_, false, k.typeName, mem_persistedOutline_iff.2 (.inr ⟨name, t, ht, rfl⟩),
      k.typeName_mem, ?_, operates_operatorInputName k⟩
    exact (TypeUse.leaf?_refTo_iff (notMem_scalarNames _ _) typeName_notMem_scalarNames
      k.typeName_mem).2 ⟨k, hk, rfl⟩

/-- A field that is published as a scalar inside lists is one to filter by. -/
theorem mem_filterFields_of_published (h : (name, t, c) ∈ e.persistedOutline)
    (hs : scalar ∈ scalarNames) (ht : t.leaf? = some scalar) :
    ∃ op, (name, op) ∈ e.filterFields ∧ Operates op scalar := by
  rcases mem_persistedOutline_iff.1 h with hid | ⟨k, t', hmem, hfield⟩
  · obtain ⟨rfl, htc⟩ := Prod.mk.inj hid
    obtain ⟨rfl, -⟩ := Prod.mk.inj htc
    obtain rfl := Option.some.inj ht
    exact ⟨idFilterInput, List.mem_cons_self, operates_idFilterInput⟩
  · obtain ⟨rfl, htc⟩ := Prod.mk.inj hfield
    obtain ⟨rfl, -⟩ := Prod.mk.inj htc
    obtain ⟨kind, hkind, rfl⟩ := (TypeUse.leaf?_refTo_iff (notMem_scalarNames _ _)
      typeName_notMem_scalarNames hs).1 ht
    exact ⟨operatorInputName kind, mem_filterFields_iff.2 (.inr ⟨t', kind, hmem, hkind, rfl⟩),
      operates_operatorInputName kind⟩

/-- A field to sort by is one that is published as a scalar. -/
theorem mem_sortFields_iff :
    name ∈ e.sortFields ↔ ∃ s ∈ scalarNames, ∃ c, (name, .named s, c) ∈ e.persistedOutline := by
  simp only [sortFields, List.mem_cons, List.mem_map, List.mem_filter, Prod.exists,
    exists_and_right, exists_eq_right, mem_persistedOutline_iff]
  constructor
  · rintro (rfl | ⟨t, hmem, hkind⟩)
    · exact ⟨idScalar, by decide, false, .inl rfl⟩
    · obtain ⟨k, hk⟩ := Option.isSome_iff_exists.1 hkind
      have href := (TypeUse.refTo_eq_named_iff (notMem_scalarNames e.aliasName name)
        typeName_notMem_scalarNames k.typeName_mem).2 ⟨k, hk, rfl⟩
      exact ⟨k.typeName, k.typeName_mem, false, .inr ⟨name, t, hmem, by rw [href]⟩⟩
  · rintro ⟨s, hs, c, hid | ⟨k, t, hmem, hfield⟩⟩
    · exact .inl (Prod.mk.inj hid).1
    · obtain ⟨rfl, htc⟩ := Prod.mk.inj hfield
      obtain ⟨kind, hkind, -⟩ := (TypeUse.refTo_eq_named_iff (notMem_scalarNames _ _)
        typeName_notMem_scalarNames hs).1 (Prod.mk.inj htc).1.symm
      exact .inr ⟨t, hmem, Option.isSome_iff_exists.2 ⟨kind, hkind⟩⟩

end

end Entity

/-! ### Compiled types -/

section Compiled

variable {x : CompileContext} {q : Demand} {b : Blueprint} {d : TypeDef} {e : Entity}
  {name : String} {qs : List Demand}

theorem CompileContext.session_append (x : CompileContext) (qs qs' : List Demand)
    (r : TypeRegistry) :
    x.session (qs ++ qs') r = ((x.session qs r).1 ++ (x.session qs' (x.session qs r).2).1,
      (x.session qs' (x.session qs r).2).2) := by
  induction qs generalizing r with
  | nil => rfl
  | cons q qs ih =>
    rw [List.cons_append, x.session_cons, x.session_cons, ih]
    rfl

/-- A demand has compiled the type of a name: it was answered in a session, whatever became of the
other demands, and the session leaves the type behind. -/
def Demand.Compiled (x : CompileContext) (q : Demand) (name : String) (d : TypeDef) : Prop :=
  ∃ qs qs', (x.answer q (x.session qs .empty).2).1.isOk = true ∧
    (x.session (qs ++ q :: qs') .empty).2.Holds name d

/-- A compiled type has the outline of the signature that the demand asks for, and no name occurs
twice in it. -/
theorem Demand.Compiled.outline (h : q.Compiled x b.name d) (hb : q.blueprint? x = some b) :
    d.outline = b.signature.outline b.name ∧ (d.outline.map Prod.fst).Nodup := by
  suffices d.outline = b.signature.outline b.name ∧ b.signature.Sound b.name from
    ⟨this.1, this.1 ▸ this.2.distinct⟩
  obtain ⟨qs, qs', hok, hheld⟩ := h
  have hserves := answer_serves_all q (session_consistent x qs)
  have hrest := session_attended_all qs' hserves.consistent
  rw [x.session_append, x.session_cons] at hheld
  cases ha : (x.answer q (x.session qs .empty).2).1 with
  | error f =>
    rw [ha] at hok
    exact absurd hok (by simp [Except.isOk, Except.toBool])
  | ok t =>
    -- what was reserved for the demand stays reserved to the end of the session
    have hreserved : (x.session qs' (x.answer q (x.session qs .empty).2).2).2.Reserved
        b.name b.signature :=
      hrest.within _ _ ((hserves.ok t ha).2.2.reserved_of_blueprint hb)
    cases d with
    | object o => exact hrest.consistent.outline_of_object hreserved hheld
    | input i => exact hrest.consistent.outline_of_input hreserved hheld
    | scalar | enum => exact hheld.elim

/-- A session with all demands answered compiles a type of the right kind for each of them. -/
theorem Demand.exists_compiled (hok : ∀ a ∈ (x.session qs .empty).1, a.isOk = true) (hq : q ∈ qs)
    (hb : q.blueprint? x = some b) :
    ∃ d, q.Compiled x b.name d ∧ d.Generated b.signature.isObject := by
  have hserved := session_served hok (Met.of_mem hq)
  obtain ⟨d, hheld, hkind⟩ :=
    (session_settled hok).holds_of_reserved (hserved.reserved_of_blueprint hb)
  obtain ⟨before, after, rfl⟩ := List.append_of_mem hq
  refine ⟨d, ⟨before, after, hok _ ?_, hheld⟩, hkind⟩
  rw [x.session_append, x.session_cons]
  exact List.mem_append_right _ List.mem_cons_self

theorem TypeDef.Generated.eq_object (h : d.Generated true) : ∃ o, d = .object o := by
  cases d with
  | object o => exact ⟨o, rfl⟩
  | input => exact nomatch h
  | scalar | enum => exact h.elim

theorem TypeDef.Generated.eq_input (h : d.Generated false) : ∃ i, d = .input i := by
  cases d with
  | input i => exact ⟨i, rfl⟩
  | object => exact nomatch h
  | scalar | enum => exact h.elim

end Compiled

/-! ### Fields of compiled types -/

theorem ObjectType.names_outline (o : ObjectType) :
    o.outline.map Prod.fst = o.fields.map FieldDef.name := by
  simp [outline, FieldDef.outline, Function.comp_def]

theorem InputType.names_outline (i : InputType) :
    i.outline.map Prod.fst = i.fields.map InputField.name := by
  simp [outline, InputField.outline, Function.comp_def]

section Fields

variable {o : ObjectType} {i s : InputType} {e : Entity} {name n : String}

/-- A type has a field of a name just when its outline tells the type of one. -/
theorem ObjectType.exists_field_iff (ho : o.outline = e.persistedOutline) {P : TypeRef → Prop} :
    (∃ g ∈ o.fields, g.name = n ∧ P g.type) ↔ ∃ t c, (n, t, c) ∈ e.persistedOutline ∧ P t := by
  rw [← ho]
  constructor
  · rintro ⟨g, hg, rfl, ht⟩
    exact ⟨g.type, g.isComputed, List.mem_map_of_mem hg, ht⟩
  · rintro ⟨t, c, hmem, ht⟩
    obtain ⟨g, hg, hout⟩ := List.mem_map.1 hmem
    obtain ⟨rfl, htc⟩ := Prod.mk.inj hout
    exact ⟨g, hg, rfl, (Prod.mk.inj htc).1 ▸ ht⟩

/-- The lists of filters apart, the fields of a filter input are those to filter by. -/
theorem InputType.mem_outline_iff
    (hi : i.outline = (Signature.filterInput e.filterFields).outline name) (hand : n ≠ "AND")
    (hor : n ≠ "OR") {t : TypeRef} {c : Bool} :
    (n, t, c) ∈ i.outline ↔ ∃ op, (n, op) ∈ e.filterFields ∧ t = .named op ∧ c = false := by
  rw [hi, Signature.outline]
  simp [hand, hor, eq_comm]

theorem exists_filter_field_iff (ho : o.outline = e.persistedOutline)
    (hi : i.outline = (Signature.filterInput e.filterFields).outline name) (hand : n ≠ "AND")
    (hor : n ≠ "OR") :
    (∃ f ∈ i.fields, f.name = n) ↔
      ∃ g ∈ o.fields, g.name = n ∧ ∃ scalar ∈ scalarNames, g.type.leaf? = some scalar := by
  rw [ObjectType.exists_field_iff ho (P := fun t => ∃ s ∈ scalarNames, t.leaf? = some s)]
  constructor
  · rintro ⟨f, hf, rfl⟩
    obtain ⟨op, hop, -⟩ := (InputType.mem_outline_iff hi hand hor).1 (List.mem_map_of_mem hf)
    obtain ⟨t, c, scalar, hmem, hs, ht, -⟩ := Entity.published_of_mem_filterFields hop
    exact ⟨t, c, hmem, scalar, hs, ht⟩
  · rintro ⟨t, c, hmem, scalar, hs, ht⟩
    obtain ⟨op, hop, -⟩ := Entity.mem_filterFields_of_published hmem hs ht
    obtain ⟨f, hf, hout⟩ := List.mem_map.1
      ((InputType.mem_outline_iff hi hand hor).2 ⟨op, hop, rfl, rfl⟩)
    exact ⟨f, hf, (Prod.mk.inj hout).1⟩

/-- The operator input of a field goes with the scalar that the field is published as. -/
theorem operates_of_fields (ho : o.outline = e.persistedOutline)
    (hi : i.outline = (Signature.filterInput e.filterFields).outline name)
    (hnames : (o.fields.map FieldDef.name).Nodup) {f : InputField} (hf : f ∈ i.fields)
    (hand : f.name ≠ "AND") (hor : f.name ≠ "OR") {g : FieldDef} (hg : g ∈ o.fields)
    (hname : g.name = f.name) :
    ∃ op scalar, g.type.leaf? = some scalar ∧ f.type = .named op ∧ Operates op scalar ∧
      (f.name = idField → op = idFilterInput) := by
  obtain ⟨op, hop, htype, -⟩ := (InputType.mem_outline_iff hi hand hor).1 (List.mem_map_of_mem hf)
  obtain ⟨t, c, scalar, hshown, -, ht, hoperates⟩ := Entity.published_of_mem_filterFields hop
  obtain ⟨g', hg', hname', rfl⟩ :=
    (ObjectType.exists_field_iff ho (P := fun t' => t' = t)).2 ⟨t, c, hshown, rfl⟩
  obtain rfl := List.inj_on_of_nodup_map hnames hg hg' (hname.trans hname'.symm)
  refine ⟨op, scalar, ht, htype, hoperates, fun hid => ?_⟩
  rcases Entity.mem_filterFields_iff.1 hop with ⟨-, hid'⟩ | ⟨_, _, hmem, -⟩
  · exact hid'
  · exact absurd hid (Entity.mem_dataTypes_iff.1 hmem).2

theorem names_filter (hi : i.outline = (Signature.filterInput e.filterFields).outline name) :
    i.fields.map InputField.name = e.filterFields.map Prod.fst ++ ["AND", "OR"] := by
  rw [← i.names_outline, hi]
  simp [Signature.outline, Function.comp_def]

/-- The fields of a filter input stand in the order of the type, the lists of filters apart. -/
theorem names_filter_sublist (ho : o.outline = e.persistedOutline)
    (hi : i.outline = (Signature.filterInput e.filterFields).outline name) :
    ((i.fields.map InputField.name).filter fun n => n ≠ "AND" ∧ n ≠ "OR").Sublist
      (o.fields.map FieldDef.name) := by
  rw [names_filter hi, List.filter_append, ← o.names_outline, ho]
  refine List.Sublist.trans ?_ e.names_filterFields_sublist
  simp

theorem names_sort (hs : s.outline = (Signature.sortInput e.sortFields).outline name) :
    s.fields.map InputField.name = e.sortFields := by
  rw [← s.names_outline, hs]
  simp [Signature.outline, Function.comp_def]

theorem exists_sort_field_iff (ho : o.outline = e.persistedOutline)
    (hs : s.outline = (Signature.sortInput e.sortFields).outline name) :
    (∃ f ∈ s.fields, f.name = n) ↔
      ∃ g ∈ o.fields, g.name = n ∧ ∃ scalar ∈ scalarNames, g.type = .named scalar := by
  rw [ObjectType.exists_field_iff ho (P := fun t => ∃ s ∈ scalarNames, t = .named s),
    ← List.mem_map, names_sort hs, Entity.mem_sortFields_iff]
  constructor
  · rintro ⟨scalar, hscalar, c, hmem⟩
    exact ⟨_, c, hmem, scalar, hscalar, rfl⟩
  · rintro ⟨t, c, hmem, scalar, hscalar, rfl⟩
    exact ⟨scalar, hscalar, c, hmem⟩

end Fields

/-- **What an entity can be filtered and sorted by can be read off its persisted type.** The three
types are there after a session that asks for them and in which all demands are answered. In
whatever sessions they have been compiled, no name occurs twice in one of them, and the fields of
both inputs stand in the order of the type. A name is one to filter by if the type publishes it as
a scalar inside any number of lists, and its operator input is the one whose operands are of this
scalar, that of identifiers for the identifier. It is one to sort by if it is published as a scalar
and nothing else. -/
theorem queried_fields_published (x : CompileContext) (e : Entity) :
    (∀ qs, (∀ a ∈ (x.session qs .empty).1, a.isOk = true) →
      .entity (.output .entityType) e ∈ qs → .filter e ∈ qs → .sort e ∈ qs →
      ∃ o i s,
        (Demand.entity (.output .entityType) e).Compiled x (e.aliasName ++ "Entity") (.object o) ∧
        (Demand.filter e).Compiled x (e.aliasName ++ "EntityFilter") (.input i) ∧
        (Demand.sort e).Compiled x (e.aliasName ++ "EntitySort") (.input s)) ∧
    ∀ o i s,
      (Demand.entity (.output .entityType) e).Compiled x (e.aliasName ++ "Entity") (.object o) →
      (Demand.filter e).Compiled x (e.aliasName ++ "EntityFilter") (.input i) →
      (Demand.sort e).Compiled x (e.aliasName ++ "EntitySort") (.input s) →
      (o.fields.map FieldDef.name).Nodup ∧ (i.fields.map InputField.name).Nodup ∧
      (s.fields.map InputField.name).Nodup ∧
      ((i.fields.map InputField.name).filter fun n => n ≠ "AND" ∧ n ≠ "OR").Sublist
        (o.fields.map FieldDef.name) ∧
      (s.fields.map InputField.name).Sublist (o.fields.map FieldDef.name) ∧
      (∀ n, n ≠ "AND" → n ≠ "OR" →
        ((∃ f ∈ i.fields, f.name = n) ↔
          ∃ g ∈ o.fields, g.name = n ∧ ∃ scalar ∈ scalarNames, g.type.leaf? = some scalar)) ∧
      (∀ f ∈ i.fields, f.name ≠ "AND" → f.name ≠ "OR" → ∀ g ∈ o.fields, g.name = f.name →
        ∃ op scalar, g.type.leaf? = some scalar ∧ f.type = .named op ∧ Operates op scalar ∧
          (f.name = "_id" → op = "IDFilter")) ∧
      ∀ n, (∃ f ∈ s.fields, f.name = n) ↔
        ∃ g ∈ o.fields, g.name = n ∧ ∃ scalar ∈ scalarNames, g.type = .named scalar := by
  refine ⟨fun qs hok hentity hfilter hsort => ?_, fun o i s hobject hinput hsorted => ?_⟩
  · obtain ⟨d, hd, hkind⟩ := Demand.exists_compiled hok hentity rfl
    obtain ⟨d', hd', hkind'⟩ := Demand.exists_compiled hok hfilter rfl
    obtain ⟨d'', hd'', hkind''⟩ := Demand.exists_compiled hok hsort rfl
    obtain ⟨o, rfl⟩ := TypeDef.Generated.eq_object hkind
    obtain ⟨i, rfl⟩ := TypeDef.Generated.eq_input hkind'
    obtain ⟨s, rfl⟩ := TypeDef.Generated.eq_input hkind''
    rw [← typeName_entityType, ← e.filterInputName_eq, ← e.sortInputName_eq]
    exact ⟨o, i, s, hd, hd', hd''⟩
  · rw [← typeName_entityType] at hobject
    rw [← e.filterInputName_eq] at hinput
    rw [← e.sortInputName_eq] at hsorted
    obtain ⟨ho, honce⟩ := hobject.outline (b := x.entityBlueprint (.output .entityType) e) rfl
    obtain ⟨hi, hionce⟩ := hinput.outline (b := e.filterBlueprint) rfl
    obtain ⟨hs, hsonce⟩ := hsorted.outline (b := e.sortBlueprint) rfl
    have hpersisted : o.outline = e.persistedOutline := by
      rw [← e.outline_entityType, ← fieldsOf_of_persisted (x := x) (u := .output .entityType) rfl e]
      exact ho
    have hdistinct : (o.fields.map FieldDef.name).Nodup := o.names_outline ▸ honce
    refine ⟨hdistinct, i.names_outline ▸ hionce, s.names_outline ▸ hsonce,
      names_filter_sublist hpersisted hi, ?_,
      fun n => exists_filter_field_iff hpersisted hi,
      fun f hf hand hor g hg => operates_of_fields hpersisted hi hdistinct hf hand hor hg,
      fun n => exists_sort_field_iff hpersisted hs⟩
    rw [names_sort hs, ← o.names_outline, hpersisted]
    exact e.names_sortFields_sublist

/-- Talks declare an identifier, and publish scalars inside lists, a shape and a reference. -/
theorem queried_fields_published_talk :
    let e : Entity := { Entity.bare "talk" with
      properties := [("_id", .plain (.scalar .number)), ("title", .plain (.scalar .string)),
        ("starts", .plain (.array (.array (.scalar .date)))),
        ("hall", .plain (.shape [("seats", .scalar .number)])),
        ("AND", .plain (.reference "talk"))] }
    let x : CompileContext := ⟨⟨[e]⟩, .empty⟩
    let qs := [Demand.entity (.output .entityType) e, .filter e, .sort e]
    (∀ a ∈ (x.session qs .empty).1, a.isOk = true) ∧
      ∃ o i s,
        (Demand.entity (.output .entityType) e).Compiled x ("talk" ++ "Entity") (.object o) ∧
        (Demand.filter e).Compiled x ("talk" ++ "EntityFilter") (.input i) ∧
        (Demand.sort e).Compiled x ("talk" ++ "EntitySort") (.input s) ∧
        i.fields.map InputField.name = ["_id", "title", "starts", "AND", "OR"] ∧
        s.fields.map InputField.name = ["_id", "title"] ∧
        (∃ g ∈ o.fields, g.name = "starts" ∧ ∃ scalar ∈ scalarNames, g.type.leaf? = some scalar) ∧
        ¬ ∃ g ∈ o.fields, g.name = "hall" ∧ ∃ scalar ∈ scalarNames, g.type = .named scalar := by
  intro e x qs
  have hok : ∀ a ∈ (x.session qs .empty).1, a.isOk = true := by decide +kernel
  obtain ⟨o, i, s, ho, hi, hs⟩ :=
    (queried_fields_published x e).1 qs hok (by simp [qs]) (by simp [qs]) (by simp [qs])
  obtain ⟨-, -, -, -, -, hfilter, -, hsort⟩ := (queried_fields_published x e).2 o i s ho hi hs
  have hinames : i.fields.map InputField.name = ["_id", "title", "starts", "AND", "OR"] :=
    names_filter (Demand.Compiled.outline (b := e.filterBlueprint) hi rfl).1
  have hsnames : s.fields.map InputField.name = ["_id", "title"] :=
    names_sort (Demand.Compiled.outline (b := e.sortBlueprint) hs rfl).1
  refine ⟨hok, o, i, s, ho, hi, hs, hinames, hsnames, ?_, ?_⟩
  · refine (hfilter "starts" (by decide) (by decide)).1 (List.mem_map.1 ?_)
    rw [hinames]
    decide
  · rw [← hsort "hall", ← List.mem_map, hsnames]
    decide

end EntityGraph
