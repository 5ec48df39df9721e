import EntityGraph.Proofs.Compile.Invariant

/-!
A registry at rest: consistent, with nothing under construction. Every reserved name is then that
of a finished type, the one that its signature stands for, and what is served is closed under what
it leads to. So a type refers to finished types of its kind only, however far it leads.
-/

namespace EntityGraph

/-- The registry has the definition under the name. -/
def TypeRegistry.Holds (r : TypeRegistry) (name : String) : TypeDef → Prop
  | .object o => Fields.get? r.objects name = some o
  | .input i => Fields.get? r.inputs name = some i
  | .scalar .. | .enum .. => False

/-- **A registry at rest** after demands of some kind. -/
structure Settled (x : CompileContext) (P : Demand → Prop) (r : TypeRegistry) : Prop
    extends Consistent x P r where
  /-- Nothing is under construction. -/
  rest : r.generating = []

namespace Settled

variable {x : CompileContext} {P : Demand → Prop} {r : TypeRegistry} {q q' : Demand}
  {b b' : Blueprint}

/-! ### What is reserved is finished -/

theorem objects_of_get? (h : Settled x P r) {name : String} {o : ObjectType}
    (hget : Fields.get? r.objects name = some o) : Built x P r name (.object o) :=
  h.objects (name, o) (Fields.mem_of_get? hget)

theorem inputs_of_get? (h : Settled x P r) {name : String} {i : InputType}
    (hget : Fields.get? r.inputs name = some i) : Built x P r name (.input i) :=
  h.inputs (name, i) (Fields.mem_of_get? hget)

/-- A reserved name has a finished type. -/
theorem exists_holds (h : Settled x P r) {name : String} (hname : r.contains name = true) :
    ∃ d, r.Holds name d ∧ Built x P r name d := by
  rcases h.parts.mem_finished h.rest hname with hmem | hmem
  · obtain ⟨o, ho⟩ := Option.isSome_iff_exists.1 (Fields.contains_iff.2 hmem)
    exact ⟨.object o, ho, h.objects_of_get? ho⟩
  · obtain ⟨i, hi⟩ := Option.isSome_iff_exists.1 (Fields.contains_iff.2 hmem)
    exact ⟨.input i, hi, h.inputs_of_get? hi⟩

/-- **What is reserved is finished**, with a definition that is built for the same signature. -/
theorem finished_of_reserved (h : Settled x P r) {name : String} {s : Signature}
    (hs : r.Reserved name s) : ∃ q b, P q ∧ CarriedOut x r q b ∧ b.name = name ∧
      b.signature = s ∧ r.Holds name b.definition := by
  obtain ⟨d, hholds, q, b, hq, hdone, rfl, rfl⟩ := h.exists_holds hs.contains
  refine ⟨q, b, hq, hdone, rfl, ?_, hholds⟩
  exact Signature.fingerprint_injective (Option.some.inj (hdone.reserved.symm.trans hs))

theorem finished_of_served (h : Settled x P r) (hs : Served x r q)
    (hb : q.blueprint? x = some b) : ∃ q' b', P q' ∧ CarriedOut x r q' b' ∧ b'.name = b.name ∧
      b'.signature = b.signature ∧ r.Holds b.name b'.definition :=
  h.finished_of_reserved (hs.reserved_of_blueprint hb)

/-! ### What is served is closed -/

/-- What a served demand leads to is served. -/
theorem served_of_leads (h : Settled x P r) (hs : Served x r q) (hl : Leads x q q') :
    Served x r q' := by
  cases hs with
  | reserved hb hr =>
    obtain ⟨q₀, b₀, -, hdone, hname, hsig, -⟩ := h.finished_of_reserved hr
    -- the type was built for another demand perhaps, which leads to the same
    refine hdone.served q' ((Demand.leads_iff hdone.blueprint).2 ?_)
    rw [hname, hsig]
    exact (Demand.leads_iff hb).1 hl
  | scalar => exact nomatch hl
  | array hs =>
    cases hl
    exact hs
  | reference ha hs =>
    cases hl with
    | target ha' =>
      obtain rfl := Option.some.inj (ha.symm.trans ha')
      exact hs

/-- Every demand that is met is served. -/
theorem served_of_met (h : Settled x P r) {qs : List Demand} (hqs : ∀ q ∈ qs, Served x r q)
    (hq : Met x qs q) : Served x r q := by
  obtain ⟨p, hp, hreach⟩ := hq
  induction hreach with
  | refl => exact hqs p hp
  | tail _ hl ih => exact h.served_of_leads ih hl

/-- The signature of a served demand is sound. -/
theorem sound_of_served (h : Settled x P r) (hs : Served x r q) (hb : q.blueprint? x = some b) :
    b.signature.Sound b.name := by
  obtain ⟨q₀, b₀, -, hdone, hname, hsig, -⟩ := h.finished_of_served hs hb
  rw [← hname, ← hsig]
  exact hdone.sound

/-! ### What types refer to -/

/-- The kind of a finished type is that of the signature its name is reserved for. -/
theorem holds_of_reserved (h : Settled x P r) {name : String} {s : Signature}
    (hs : r.Reserved name s) : ∃ d, r.Holds name d ∧ d.Generated s.isObject := by
  obtain ⟨q, b, -, hdone, -, rfl, hholds⟩ := h.finished_of_reserved hs
  exact ⟨b.definition, hholds, (Demand.outline_of_blueprint hdone.blueprint).2⟩

/-- **A reference leads to a scalar or to a finished type of its kind.** -/
theorem base_refTo (h : Settled x P r) {u : TypeUse} {name : String} {t : PropertyType}
    (hs : Served x r (.property u name t)) :
    (∃ k, (u.refTo name t).base = ScalarKind.typeName k) ∨
      ∃ d, r.Holds (u.refTo name t).base d ∧ d.Generated u.isOutput := by
  induction t using PropertyType.induct with
  | scalar k => exact .inl ⟨k, by rw [u.refTo_scalar]; rfl⟩
  | array t ih => exact ih (h.served_of_leads hs .item)
  | shape fs =>
    refine .inr ?_
    rw [← u.isObject_shapeSignature fs]
    exact h.holds_of_reserved (hs.reserved_of_blueprint rfl)
  | reference a =>
    refine .inr ?_
    cases hs with
    | reserved hb => exact absurd hb (by simp [Demand.blueprint?])
    | @reference _ _ _ e ha hs =>
      rw [← u.isObject_entitySignature e.aliasName (x.fieldsOf u e)]
      rw [TypeUse.refTo, TypeRef.base, ← Catalog.get?_alias ha]
      exact h.holds_of_reserved (hs.reserved_of_blueprint rfl)

end Settled

end EntityGraph
