import EntityGraph.Proofs.Compile.Fingerprint
import EntityGraph.Proofs.Compile.Outline
import EntityGraph.Proofs.Compile.Registry

/-!
What holds of a registry in the middle of a compilation. Every reserved name is reserved for a
demand, and every finished type is the one that a demand builds under its name. What a finished
type leads to is reserved, though it need not be finished: a type under construction may be
referred to. When nothing is under construction any more, the reserved names are therefore closed
under what they lead to.
-/

namespace EntityGraph

variable {x : CompileContext} {P : Demand → Prop} {r s : TypeRegistry} {q q' : Demand}
  {b b' : Blueprint}

/-! ### Served demands -/

/-- A demand is served: the type that it asks for is reserved under its name. -/
inductive Served (x : CompileContext) (r : TypeRegistry) : Demand → Prop
  | reserved {q : Demand} {b : Blueprint} :
      q.blueprint? x = some b → r.Reserved b.name b.signature → Served x r q
  | scalar {u : TypeUse} {name : String} {k : ScalarKind} :
      Served x r (.property u name (.scalar k))
  | array {u : TypeUse} {name : String} {t : PropertyType} :
      Served x r (.property u name t) → Served x r (.property u name (.array t))
  | reference {u : TypeUse} {name a : String} {e : Entity} :
      x.catalog.get? a = some e → Served x r (.entity u e) →
      Served x r (.property u name (.reference a))

theorem Served.mono (h : Served x r q) (hw : r.Within s) : Served x s q := by
  induction h with
  | reserved hb hr => exact .reserved hb (hw _ _ hr)
  | scalar => exact .scalar
  | array _ ih => exact .array ih
  | reference ha _ ih => exact .reference ha ih

theorem Served.reserved_of_blueprint (h : Served x r q) (hb : q.blueprint? x = some b) :
    r.Reserved b.name b.signature := by
  cases h with
  | reserved hb' hr =>
    obtain rfl := Option.some.inj (hb.symm.trans hb')
    exact hr
  | scalar | array | reference => exact absurd hb (by simp [Demand.blueprint?])

/-- Served demands for one name ask for one signature. -/
theorem Served.signature_eq (h : Served x r q) (hb : q.blueprint? x = some b)
    (h' : Served x r q') (hb' : q'.blueprint? x = some b') (hname : b'.name = b.name) :
    b'.signature = b.signature := by
  have hr := h.reserved_of_blueprint hb
  have hr' := h'.reserved_of_blueprint hb'
  rw [hname] at hr'
  exact Signature.fingerprint_injective (Option.some.inj (hr'.symm.trans hr))

/-! ### Finished types -/

/-- A blueprint is carried out for a demand: its name is reserved, its signature is sound, and
all that it leads to is served. -/
structure CarriedOut (x : CompileContext) (r : TypeRegistry) (q : Demand) (b : Blueprint) :
    Prop where
  blueprint : q.blueprint? x = some b
  reserved : r.Reserved b.name b.signature
  sound : b.signature.Sound b.name
  served : ∀ q', Leads x q q' → Served x r q'

theorem CarriedOut.mono (h : CarriedOut x r q b) (hw : r.Within s) : CarriedOut x s q b :=
  ⟨h.blueprint, hw _ _ h.reserved, h.sound, fun q' hl => (h.served q' hl).mono hw⟩

/-- A definition under a name is that of a blueprint carried out. -/
def Built (x : CompileContext) (P : Demand → Prop) (r : TypeRegistry) (name : String)
    (d : TypeDef) : Prop :=
  ∃ q b, P q ∧ CarriedOut x r q b ∧ b.name = name ∧ b.definition = d

theorem Built.mono {name : String} {d : TypeDef} (h : Built x P r name d) (hw : r.Within s) :
    Built x P s name d := by
  obtain ⟨q, b, hq, hdone, hname, hd⟩ := h
  exact ⟨q, b, hq, hdone.mono hw, hname, hd⟩

/-! ### The invariant -/

/-- **What holds between two steps of a compilation** that serves demands of some kind. -/
structure Consistent (x : CompileContext) (P : Demand → Prop) (r : TypeRegistry) : Prop where
  /-- Every reserved name is in one place. -/
  parts : r.Partitioned
  /-- Every name is reserved for what a demand builds. -/
  reserved : ∀ n f, Fields.get? r.fingerprints n = some f →
    ∃ q b, P q ∧ q.blueprint? x = some b ∧ b.name = n ∧ b.signature.fingerprint = f
  /-- Every finished object is what a demand builds. -/
  objects : ∀ p ∈ r.objects, Built x P r p.1 (.object p.2)
  /-- Every finished input is what a demand builds. -/
  inputs : ∀ p ∈ r.inputs, Built x P r p.1 (.input p.2)

namespace Consistent

theorem empty : Consistent x P .empty :=
  ⟨.empty, fun n f h => absurd h (by simp [TypeRegistry.empty]),
    fun p hp => absurd hp List.not_mem_nil, fun p hp => absurd hp List.not_mem_nil⟩

theorem enter (h : Consistent x P r) (hq : P q) (hb : q.blueprint? x = some b)
    (hfree : Fields.get? r.fingerprints b.name = none) :
    Consistent x P (r.enter b.name b.signature.fingerprint) := by
  have hw := TypeRegistry.within_enter hfree b.signature.fingerprint
  refine ⟨h.parts.enter hfree _, fun n f hf => ?_, fun p hp => (h.objects p hp).mono hw,
    fun p hp => (h.inputs p hp).mono hw⟩
  rw [TypeRegistry.get?_enter] at hf
  split at hf
  · rename_i hn
    exact ⟨q, b, hq, hb, hn, Option.some.inj hf⟩
  · exact h.reserved n f hf

theorem within_finish (r : TypeRegistry) (name : String) (d : TypeDef) :
    r.Within (r.finish name d) := fun n f h => by rwa [TypeRegistry.fingerprints_finish]

theorem generating_finish (r : TypeRegistry) (name : String) {d : TypeDef} {isObject : Bool}
    (h : d.Generated isObject) : (r.finish name d).generating = r.others name := by
  cases d with
  | object | input => rfl
  | scalar | enum => exact absurd h (by simp [TypeDef.Generated])

theorem finish (h : Consistent x P r) (hq : P q) (hdone : CarriedOut x r q b)
    (hgen : b.name ∈ r.generating) : Consistent x P (r.finish b.name b.definition) := by
  have hw := within_finish r b.name b.definition
  have hbuilt : Built x P (r.finish b.name b.definition) b.name b.definition :=
    ⟨q, b, hq, hdone.mono hw, rfl, rfl⟩
  refine ⟨h.parts.finish hgen _, fun n f hf => ?_, fun p hp => ?_, fun p hp => ?_⟩
  · rw [TypeRegistry.fingerprints_finish] at hf
    exact h.reserved n f hf
  · cases hd : b.definition with
    | object o =>
      rw [hd] at hp hw hbuilt
      rcases Fields.mem_insert hp with rfl | hp
      · exact hbuilt
      · exact (h.objects p hp).mono hw
    | input | scalar | enum =>
      rw [hd] at hp hw
      exact (h.objects p hp).mono hw
  · cases hd : b.definition with
    | input i =>
      rw [hd] at hp hw hbuilt
      rcases Fields.mem_insert hp with rfl | hp
      · exact hbuilt
      · exact (h.inputs p hp).mono hw
    | object | scalar | enum =>
      rw [hd] at hp hw
      exact (h.inputs p hp).mono hw

end Consistent

end EntityGraph
