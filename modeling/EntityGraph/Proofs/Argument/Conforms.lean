import EntityGraph.Proofs.Compile.Definitions
import EntityGraph.Schema.Basic
import EntityGraph.Validation.Input

/-!
Values that conform to a type. The relation is that of the language: it says what a caller may
send, whoever reads it. What names stand for in it are the types that every interface has and the
inputs that a compilation has generated, each with the fields that its signature fixes.
-/

namespace EntityGraph

/-! ### Conformance -/

/-- **A value conforms to a type.** Null conforms to what allows it, a value that is not a list
counts as the list of it, scalars and enums decide about their own values, and an object conforms
to an input type that knows all its keys, if no key is repeated and none that is required left
out. -/
inductive Conforms (type? : String → Option TypeDef) : TypeRef → Value → Prop
  | null {t : TypeRef} (ht : t.isNonNull = false) : Conforms type? t .null
  | nonNull {t : TypeRef} {v : Value} (hv : v.isNull = false) (h : Conforms type? t v) :
      Conforms type? (.nonNull t) v
  | items {t : TypeRef} {vs : List Value} (h : ∀ v ∈ vs, Conforms type? t v) :
      Conforms type? (.list t) (.list vs)
  | single {t : TypeRef} {v : Value} (hnull : v.isNull = false) (hlist : ∀ vs, v ≠ .list vs)
      (h : Conforms type? t v) : Conforms type? (.list t) v
  | leaf {n : String} {d : TypeDef} {v : Value} (hd : type? n = some d) (hin : d.isInput = true)
      (hout : d.isOutput = true) (hv : d.acceptsLeaf v = true) : Conforms type? (.named n) v
  | object {n : String} {i : InputType} {fs : List (String × Value)}
      (hi : type? n = some (.input i)) (hdistinct : Fields.Distinct fs)
      (hcomplete : i.complete (Fields.keys fs) = true)
      (hknown : ∀ f ∈ fs, ∃ g, i.field? f.1 = some g)
      (h : ∀ f ∈ fs, ∀ g, i.field? f.1 = some g → Conforms type? g.type f.2) :
      Conforms type? (.named n) (.object fs)

namespace Conforms

variable {type? : String → Option TypeDef} {n : String} {i : InputType} {v : Value}
  {ts : List TypeRef}

/-- A value of an input type is null or an object. -/
theorem of_input (hi : type? n = some (.input i)) (h : Conforms type? (.named n) v) :
    v = .null ∨ ∃ fs, v = .object fs ∧ Fields.Distinct fs ∧
      ∀ f ∈ fs, ∃ g ∈ i.fields, g.name = f.1 ∧ Conforms type? g.type f.2 := by
  cases h with
  | null => exact .inl rfl
  | leaf hd hin hout =>
    obtain rfl := Option.some.inj (hi.symm.trans hd)
    cases hout
  | object hi' hdistinct _ hknown hfields =>
    obtain rfl := TypeDef.input.inj (Option.some.inj (hi.symm.trans hi'))
    refine .inr ⟨_, rfl, hdistinct, fun f hf => ?_⟩
    obtain ⟨g, hg⟩ := hknown f hf
    refine ⟨g, List.mem_of_find?_eq_some hg, ?_, hfields f hf g hg⟩
    simpa using List.find?_some hg

/-- A list that is declared without nulls lists values of its items. -/
theorem of_nonNullList (h : Conforms type? (.nonNullList n) v) :
    v = .null ∨ (∃ vs, v = .list vs ∧ ∀ w ∈ vs, Conforms type? (.named n) w) ∨
      Conforms type? (.named n) v := by
  have hitem : ∀ {w}, Conforms type? (.nonNull (.named n)) w → Conforms type? (.named n) w := by
    intro w hw
    cases hw with
    | null ht => cases ht
    | nonNull _ hw => exact hw
  cases h with
  | null => exact .inl rfl
  | items hvs => exact .inr (.inl ⟨_, rfl, fun w hw => hitem (hvs w hw)⟩)
  | single _ _ hv => exact .inr (.inr (hitem hv))

/-- An object conforms when its values do, each to the type of the field that its key names. -/
theorem of_fields {fs : List (String × Value)} (hi : type? n = some (.input i))
    (hdistinct : Fields.Distinct fs) (hcomplete : i.complete (Fields.keys fs) = true)
    (h : List.Forall₂ (fun f t => (i.field? f.1).map InputField.type = some t ∧
      Conforms type? t f.2) fs ts) : Conforms type? (.named n) (.object fs) := by
  have hfields : ∀ f ∈ fs, ∃ g, i.field? f.1 = some g ∧ Conforms type? g.type f.2 := by
    clear hdistinct hcomplete
    induction h with
    | nil => exact List.forall_mem_nil _
    | cons hf _ ih =>
      obtain ⟨htype, hconforms⟩ := hf
      obtain ⟨g, hg, rfl⟩ := Option.map_eq_some_iff.1 htype
      exact List.forall_mem_cons.2 ⟨⟨g, hg, hconforms⟩, ih⟩
  refine .object hi hdistinct hcomplete (fun f hf => ?_) fun f hf g hg => ?_
  · obtain ⟨g, hg, -⟩ := hfields f hf
    exact ⟨g, hg⟩
  · obtain ⟨g', hg', hconforms⟩ := hfields f hf
    obtain rfl := Option.some.inj (hg.symm.trans hg')
    exact hconforms

end Conforms

/-! ### What the inputs stand for -/

/-- The input that is built for a signature is what the name stands for. -/
def Shows (type? : String → Option TypeDef) (name : String) (s : Signature) : Prop :=
  ∃ i, type? name = some (.input i) ∧ i.outline = s.outline name ∧
    ((s.outline name).map Prod.fst).Nodup

/-- Of the types of values, the shared ones have the names of operator inputs and of sort
directions. -/
structure SharesTypes (type? : String → Option TypeDef) : Prop where
  operators : ∀ op ∈ operatorInputs, ∀ d, type? op.name = some d → d.isInput = true → d = .input op
  directions : ∀ d, type? sortDirectionEnum = some d → d.isInput = true →
    d = Schema.sortDirectionType

/-! ### After a compilation -/

/-- What names stand for in the values of arguments, after a compilation: the types that every
interface has, and the generated inputs. -/
def TypeRegistry.valueType? (r : TypeRegistry) (name : String) : Option TypeDef :=
  ((Schema.sharedTypes ++ Schema.builtInTypes).find? fun d => d.name = name).or
    ((Fields.get? r.inputs name).map .input)

/-- The names of the types that every interface has. -/
def Schema.commonNames : List String :=
  (Schema.sharedTypes ++ Schema.builtInTypes).map TypeDef.name

namespace TypeRegistry

variable {x : CompileContext} {P : Demand → Prop} {r : TypeRegistry}

theorem valueType?_of_get? {name : String} {i : InputType} (h : name ∉ Schema.commonNames)
    (hi : Fields.get? r.inputs name = some i) : r.valueType? name = some (.input i) := by
  have hnone : ((Schema.sharedTypes ++ Schema.builtInTypes).find? fun d => d.name = name) =
      none := by
    rw [List.find?_eq_none]
    intro d hd hname
    exact h (List.mem_map.2 ⟨d, hd, by simpa using hname⟩)
  rw [valueType?, hnone, Option.none_or, hi]
  rfl

theorem valueType?_operator (r : TypeRegistry) :
    ∀ op ∈ operatorInputs, r.valueType? op.name = some (.input op) := by
  simp only [operatorInputs, List.forall_mem_cons]
  exact ⟨rfl, rfl, rfl, rfl, rfl, List.forall_mem_nil _⟩

theorem valueType?_shares (r : TypeRegistry) : SharesTypes r.valueType? where
  operators op hop _ hd _ := Option.some.inj (hd.symm.trans (r.valueType?_operator op hop))
  directions _ hd _ := Option.some.inj (hd.symm.trans rfl)

/-- A generated input whose name is free is shown as its signature says. -/
theorem shows_of_served (h : Settled x P r) {q : Demand} {b : Blueprint} (hs : Served x r q)
    (hb : q.blueprint? x = some b) (hinput : b.signature.isObject = false)
    (hname : b.name ∉ Schema.commonNames) : Shows r.valueType? b.name b.signature := by
  obtain ⟨q', b', -, hdone, hname', hsig, hholds⟩ := h.finished_of_served hs hb
  obtain ⟨houtline, hkind⟩ := Demand.outline_of_blueprint hdone.blueprint
  rw [hname', hsig] at houtline
  rw [hsig, hinput] at hkind
  cases hdef : b'.definition with
  | input i =>
    rw [hdef] at hholds houtline
    exact ⟨i, valueType?_of_get? hname hholds, houtline, (h.sound_of_served hs hb).distinct⟩
  | object | scalar | enum =>
    rw [hdef] at hkind
    exact absurd hkind (by simp [TypeDef.Generated])

end TypeRegistry

/-- No common type is named like a filter or sort input. -/
theorem append_notMem_commonNames {suffix : String} (h : suffix ∈ ["EntityFilter", "EntitySort"])
    (a : String) : a ++ suffix ∉ Schema.commonNames := by
  have hsuffix : ∀ s ∈ ["EntityFilter", "EntitySort"], ∀ n ∈ Schema.commonNames,
      ¬ s.toList <:+ n.toList := by decide
  intro hmem
  refine hsuffix suffix h _ hmem ?_
  rw [String.toList_append]
  exact List.suffix_append _ _

theorem Entity.filterInputName_eq (e : Entity) :
    e.filterInputName = e.aliasName ++ "EntityFilter" := by
  simp [filterInputName, OutputOptions.typeName, OutputOptions.entityType, String.append_assoc]

theorem Entity.sortInputName_eq (e : Entity) : e.sortInputName = e.aliasName ++ "EntitySort" := by
  simp [sortInputName, OutputOptions.typeName, OutputOptions.entityType, String.append_assoc]

end EntityGraph
