import EntityGraph.Proofs.Compile.Definitions
import EntityGraph.Proofs.Compile.Termination
import EntityGraph.Schema.Assembly

/-!
Entities compiled one after the other, in any order. What is demanded depends on which entities
there are, and not on their order. If one order succeeds, the demands have no fault and do not
contradict each other, so that another order succeeds as well; and what is stored under a name has
the outline of its signature, whoever asked for it first.
-/

namespace EntityGraph

open Compile

/-! ### All entities -/

namespace CompileContext

/-- Compiles all types of entities, one entity after the other. -/
def compileAll (x : CompileContext) : List Entity → Compile (List EntityTypes)
  | [] => return []
  | e :: es => do
    let t ← x.entityTypes e
    let ts ← compileAll x es
    return t :: ts

end CompileContext

/-- The demands for all types of an entity. -/
def Entity.demands (e : Entity) : List Demand :=
  [.entity (.output .publicType) e, .entity (.output .entityType) e, .filter e, .sort e,
    .entity .input e]

/-- The demands for all types of entities. -/
def allDemands (es : List Entity) : List Demand := es.flatMap Entity.demands

section

variable {x : CompileContext} {P Q : Demand → Prop} {r : TypeRegistry}

theorem entityTypes_serves (hPQ : ∀ q, Q q → P q)
    (hclosed : ∀ q q', Q q → Leads x q q' → Q q') {e : Entity} (he : ∀ q ∈ e.demands, Q q)
    (hr : Consistent x P r) :
    Serves x P Q (x.entityTypes e) (fun _ s => ∀ q ∈ e.demands, Served x s q) r := by
  simp only [Entity.demands, List.forall_mem_cons] at he ⊢
  obtain ⟨hpublic, hentity, hfilter, hsort, hinput, -⟩ := he
  unfold CompileContext.entityTypes
  refine (entityType_serves hPQ hclosed _ e hpublic hr).bind fun _ s₁ hs₁ _ h₁ => ?_
  refine (entityType_serves hPQ hclosed _ e hentity hs₁).bind fun _ s₂ hs₂ w₂ h₂ => ?_
  refine (filterInput_serves hPQ hfilter hs₂).bind fun _ s₃ hs₃ w₃ h₃ => ?_
  refine (sortInput_serves hPQ hsort hs₃).bind fun _ s₄ hs₄ w₄ h₄ => ?_
  refine (entityType_serves hPQ hclosed _ e hinput hs₄).bind fun _ s₅ hs₅ w₅ h₅ => ?_
  -- what was served on the way is served at the end
  have w₄₅ := w₄.trans w₅
  have w₃₅ := w₃.trans w₄₅
  exact Serves.pure hs₅ ⟨h₁.2.mono (w₂.trans w₃₅), h₂.2.mono w₃₅, h₃.2.mono w₄₅, h₄.2.mono w₅,
    h₅.2, List.forall_mem_nil _⟩

theorem compileAll_serves (hPQ : ∀ q, Q q → P q)
    (hclosed : ∀ q q', Q q → Leads x q q' → Q q') {es : List Entity}
    (hes : ∀ q ∈ allDemands es, Q q) (hr : Consistent x P r) :
    Serves x P Q (x.compileAll es) (fun _ s => ∀ q ∈ allDemands es, Served x s q) r := by
  induction es generalizing r with
  | nil => exact Serves.pure hr (by simp [allDemands])
  | cons e es ih =>
    obtain ⟨he, hes⟩ := List.forall_mem_append.1 hes
    refine (entityTypes_serves hPQ hclosed he hr).bind fun _ s hs _ h => ?_
    refine (ih hes hs).bind fun _ t ht w hrest => ?_
    exact Serves.pure ht (List.forall_mem_append.2 ⟨fun q hq => (h q hq).mono w, hrest⟩)

/-- Compiling the types of an entity does not stop for the length of a chain. -/
theorem entityTypes_agree (e : Entity) (r : TypeRegistry) :
    Agree (x.entityTypes e) (x.entityTypes e) r := by
  refine (x.entityType_agree _ e r).bind fun _ s _ => ?_
  refine (x.entityType_agree _ e s).bind fun _ s _ => ?_
  refine (CompileContext.filterInput_agree e s).bind fun _ s _ => ?_
  refine (CompileContext.sortInput_agree e s).bind fun _ s _ => ?_
  exact (x.entityType_agree _ e s).bind fun _ s _ => .pure _ s

theorem compileAll_agree (es : List Entity) (r : TypeRegistry) :
    Agree (x.compileAll es) (x.compileAll es) r := by
  induction es generalizing r with
  | nil => exact .pure _ r
  | cons e es ih =>
    exact (entityTypes_agree e r).bind fun _ s _ => (ih s).bind fun _ s _ => .pure _ s

/-! ### Faultless demands -/

/-- **Demands that have been served together have no fault**, in whatever order they are made. -/
theorem Settled.no_fault (h : Settled x P r) (hserved : ∀ q, P q → Served x r q)
    {e : CompileFailure} (hfault : Fault x P P e) : e = .chainTooLong := by
  cases hfault with
  | chain => rfl
  | invalid hq hb hn hinvalid =>
    have hvalid := (h.sound_of_served (hserved _ hq) hb).valid _ hn
    rw [hinvalid] at hvalid
    exact absurd hvalid (by decide)
  | repeated hq hb hrepeated =>
    exact absurd (h.sound_of_served (hserved _ hq) hb).distinct hrepeated
  | @vacant u name hq =>
    have hinhabited := (h.sound_of_served (hserved _ hq) rfl).inhabited
    cases u <;> exact absurd rfl (hinhabited rfl)
  | unknown hq ha =>
    cases hserved _ hq with
    | reserved hb => exact absurd hb (by simp [Demand.blueprint?])
    | reference ha' => exact absurd (ha.symm.trans ha') (by simp)
  | conflict hq hb hq' hb' hname hdiffer =>
    exact absurd ((hserved _ hq).signature_eq hb (hserved _ hq') hb' hname) hdiffer

/-- **What is stored under a name has one outline**, whichever demand came first. -/
theorem Settled.holds_outline (h : Settled x P r) (hserved : ∀ q, P q → Served x r q)
    {s : TypeRegistry} {name : String} {d : TypeDef} (hd : Built x P s name d) :
    ∃ d', r.Holds name d' ∧ d'.outline = d.outline ∧
      ∀ isObject, d.Generated isObject → d'.Generated isObject := by
  obtain ⟨q, b, hq, hdone, rfl, rfl⟩ := hd
  obtain ⟨q', b', -, hdone', hname, hsig, hholds⟩ :=
    h.finished_of_served (hserved q hq) hdone.blueprint
  obtain ⟨houtline, hkind⟩ := Demand.outline_of_blueprint hdone.blueprint
  obtain ⟨houtline', hkind'⟩ := Demand.outline_of_blueprint hdone'.blueprint
  refine ⟨b'.definition, hholds, ?_, fun isObject hgen => ?_⟩
  · rw [houtline, houtline', hname, hsig]
  · rw [hgen.kind_eq hkind, ← hsig]
    exact hkind'

theorem Settled.objects_outline {s : TypeRegistry} (h : Settled x P r) (h' : Settled x P s)
    (hserved : ∀ q, P q → Served x s q) {name : String} {o : ObjectType}
    (ho : Fields.get? r.objects name = some o) :
    ∃ o', Fields.get? s.objects name = some o' ∧ o'.outline = o.outline := by
  obtain ⟨d, hd, houtline, hkind⟩ := h'.holds_outline hserved (h.objects_of_get? ho)
  cases d with
  | object o' => exact ⟨o', hd, houtline⟩
  | input => exact absurd (hkind true rfl) (by simp [TypeDef.Generated])
  | scalar | enum => exact absurd hd (by simp [TypeRegistry.Holds])

theorem Settled.inputs_outline {s : TypeRegistry} (h : Settled x P r) (h' : Settled x P s)
    (hserved : ∀ q, P q → Served x s q) {name : String} {i : InputType}
    (hi : Fields.get? r.inputs name = some i) :
    ∃ i', Fields.get? s.inputs name = some i' ∧ i'.outline = i.outline := by
  obtain ⟨d, hd, houtline, hkind⟩ := h'.holds_outline hserved (h.inputs_of_get? hi)
  cases d with
  | input i' => exact ⟨i', hd, houtline⟩
  | object => exact absurd (hkind false rfl) (by simp [TypeDef.Generated])
  | scalar | enum => exact absurd hd (by simp [TypeRegistry.Holds])

end

/-! ### Orders -/

/-- Two values look the same when each that is there has a counterpart that looks the same. -/
theorem map_eq_of_forall {α β : Type} {a b : Option α} {f : α → β}
    (hab : ∀ v, a = some v → ∃ w, b = some w ∧ f w = f v)
    (hba : ∀ w, b = some w → ∃ v, a = some v ∧ f v = f w) : a.map f = b.map f := by
  cases a with
  | some v =>
    obtain ⟨w, rfl, hw⟩ := hab v rfl
    exact congrArg some hw.symm
  | none =>
    cases b with
    | none => rfl
    | some w =>
      obtain ⟨v, hv, -⟩ := hba w rfl
      exact nomatch hv

section Order

variable {x : CompileContext} {es es' : List Entity}

theorem met_allDemands (h : es.Perm es') (q : Demand) :
    Met x (allDemands es) q ↔ Met x (allDemands es') q := by
  have hmem : ∀ p, p ∈ allDemands es ↔ p ∈ allDemands es' := fun p => (h.flatMap_right _).mem_iff
  simp only [Met, hmem]

/-- Compiling entities serves the demands for them, as long as these are among the given ones. -/
theorem compileAll_met (es : List Entity) {ds : List Demand}
    (hes : ∀ q ∈ allDemands es, Met x ds q) :
    Serves x (Met x ds) (Met x ds) (x.compileAll es) (fun _ s => ∀ q ∈ allDemands es, Served x s q)
      .empty :=
  compileAll_serves (fun _ h => h) (fun _ _ h hl => h.leads hl) hes .empty

/-- Entities compiled with success leave a registry at rest, where all that is met is served. -/
theorem compileAll_settled (hok : (x.compileAll es .empty).1.isOk = true) :
    Settled x (Met x (allDemands es)) (x.compileAll es .empty).2 ∧
      ∀ q, Met x (allDemands es) q → Served x (x.compileAll es .empty).2 q := by
  have hserves := compileAll_met (x := x) es fun q hq => Met.of_mem hq
  cases hrun : (x.compileAll es .empty).1 with
  | error e =>
    rw [hrun] at hok
    exact absurd hok (by simp [Except.isOk, Except.toBool])
  | ok ts =>
    obtain ⟨hgen, hserved⟩ := hserves.ok ts hrun
    have hsettled : Settled x (Met x (allDemands es)) (x.compileAll es .empty).2 :=
      ⟨hserves.consistent, hgen⟩
    exact ⟨hsettled, fun q hq => hsettled.served_of_met hserved hq⟩

theorem compileAll_isOk_of_perm (h : es.Perm es') (hok : (x.compileAll es .empty).1.isOk = true) :
    (x.compileAll es' .empty).1.isOk = true := by
  obtain ⟨hsettled, hserved⟩ := compileAll_settled hok
  have hserves := compileAll_met (x := x) es'
    fun q hq => (met_allDemands h q).2 (Met.of_mem hq)
  cases hrun : (x.compileAll es' .empty).1 with
  | ok ts => rfl
  | error e =>
    obtain rfl := hsettled.no_fault hserved (hserves.error e hrun)
    exact absurd hrun (compileAll_agree es' .empty).ends

/-- **The order of the entities makes no difference** to whether all of them compile; and when
they do, the same names are those of finished objects and of finished inputs, each with the same
fields in the same order, of the same types, computed or not. -/
theorem compileAll_perm (x : CompileContext) {es es' : List Entity} (h : es.Perm es') :
    ((x.compileAll es .empty).1.isOk = true ↔ (x.compileAll es' .empty).1.isOk = true) ∧
    ((x.compileAll es .empty).1.isOk = true → ∀ name,
      (Fields.get? (x.compileAll es .empty).2.objects name).map ObjectType.outline =
        (Fields.get? (x.compileAll es' .empty).2.objects name).map ObjectType.outline ∧
      (Fields.get? (x.compileAll es .empty).2.inputs name).map InputType.outline =
        (Fields.get? (x.compileAll es' .empty).2.inputs name).map InputType.outline) := by
  refine ⟨⟨compileAll_isOk_of_perm h, compileAll_isOk_of_perm h.symm⟩, fun hok name => ?_⟩
  obtain ⟨hsettled, hserved⟩ := compileAll_settled hok
  obtain ⟨hsettled', hserved'⟩ := compileAll_settled (compileAll_isOk_of_perm h hok)
  have hmet : Met x (allDemands es') = Met x (allDemands es) :=
    funext fun q => propext (met_allDemands h q).symm
  rw [hmet] at hsettled' hserved'
  refine ⟨map_eq_of_forall ?_ ?_, map_eq_of_forall ?_ ?_⟩
  · exact fun o ho => hsettled.objects_outline hsettled' hserved' ho
  · exact fun o ho => hsettled'.objects_outline hsettled hserved ho
  · exact fun i hi => hsettled.inputs_outline hsettled' hserved' hi
  · exact fun i hi => hsettled'.inputs_outline hsettled hserved hi

theorem compileAll_perm_archive :
    (archiveContext.compileAll [folderEntity, fileEntity] .empty).1.isOk = true ∧
      (archiveContext.compileAll [fileEntity, folderEntity] .empty).1.isOk = true ∧
      ∀ name,
        (Fields.get? (archiveContext.compileAll [folderEntity, fileEntity] .empty).2.objects
          name).map ObjectType.outline =
        (Fields.get? (archiveContext.compileAll [fileEntity, folderEntity] .empty).2.objects
          name).map ObjectType.outline := by
  obtain ⟨hiff, hmaps⟩ :=
    compileAll_perm archiveContext (List.Perm.swap fileEntity folderEntity [])
  have hok : (archiveContext.compileAll [folderEntity, fileEntity] .empty).1.isOk = true := by
    decide +kernel
  exact ⟨hok, hiff.1 hok, fun name => (hmaps hok name).1⟩

end Order

end EntityGraph
