import EntityGraph.Proofs.Collection.History
import EntityGraph.Proofs.Mutation.Written
import Mathlib.Data.List.Induction

/-!
Entities with a single record. The flag decides which queries an entity has, and no mutation looks
at it: a creation adds a record beside the ones that are there. So a collection keeps to one record
as long as nothing is created while it holds one, and what reads the single record reads the
oldest.
-/

namespace EntityGraph

variable {σ : Type}

namespace Resolver

/-- A write adds one record if it is a creation that shows one, and none otherwise. -/
theorem Written.length_cases {fresh : String} {args : Argument.Arguments} {l l' : Ledger}
    {kind : MutationKind} {a : Except ApiError (Option Value)}
    (h : Written fresh args l kind a l') :
    (kind = .create ∧ isVoid a = false ∧ l'.length = l.length + 1) ∨
      ((kind = .create → isVoid a = true) ∧ l'.length ≤ l.length) := by
  cases h with
  | failed | void => exact .inr ⟨fun _ => rfl, Nat.le_refl _⟩
  | created => exact .inl ⟨rfl, rfl, List.length_append⟩
  | updated => exact .inr ⟨fun hkind => absurd hkind (by decide), Nat.le_of_eq (List.length_map _)⟩
  | removed => exact .inr ⟨fun hkind => absurd hkind (by decide), List.length_filter_le _ _⟩

end Resolver

/-- The records of a collection in natural order start with the first of the ledger. -/
theorem Collection.Sound.find_first {c : Collection} (h : c.Sound) :
    (c.find (.first .all)).head? = c.ledger.head?.map Prod.snd := by
  have hpass : ∀ r, Filter.passes r .all = true := fun _ => rfl
  simp only [find, FindQuery.first, sortRecords_nil, h.matching_eq, hpass, page, List.filter_true]
  cases c.ledger <;> rfl

namespace Host

/-- The field call creates a record of an entity. -/
def Creates (e : Entity) (m : FieldCall) : Prop := m.field.source = .mutation e.aliasName .create

/-- The ledger of a collection after field calls. -/
def ledgerAfter (h : Host σ) (view : σ → Store) (name : String) (ms : List FieldCall) (t : σ) :
    Ledger := (view (h.resolveAll ms t).2).ledger name

/-- What a field call answers after others. -/
def answerAfter (h : Host σ) (ms : List FieldCall) (m : FieldCall) (t : σ) :
    Except ApiError (Option Value) :=
  (h.resolve m.context m.field m.parent m.args (h.resolveAll ms t).2).1

namespace InMemory

variable {h : Host σ} {view : σ → Store} {put : Store → σ → σ} (hh : h.InMemory view put)
  {e : Entity} {types : EntityTypes} {r : Repository σ}
  (hr : h.repositories.get? e.aliasName = some r) {t : σ} (ht : (view t).Reachable)
include hh hr ht

/-- One more mutation of an entity adds a record if it is a creation that shows one, and none
otherwise. -/
theorem length_ledgerAfter_concat {m : FieldCall} (hm : m.field ∈ e.mutationFields types)
    (ds : List FieldCall) :
    let before := h.ledgerAfter view r.collection ds t
    let after := h.ledgerAfter view r.collection (ds ++ [m]) t
    let answer := h.answerAfter ds m t
    (Creates e m ∧ Resolver.isVoid answer = false ∧ after.length = before.length + 1) ∨
      ((Creates e m → Resolver.isVoid answer = true) ∧ after.length ≤ before.length) := by
  intro before after answer
  obtain ⟨kind, hkind⟩ : ∃ kind, m.field.source = .mutation e.aliasName kind := by
    simp only [Entity.mutationFields, List.mem_cons, List.not_mem_nil, or_false] at hm
    rcases hm with hm | hm | hm <;> rw [hm] <;> exact ⟨_, rfl⟩
  have hreachable := hh.reachable_resolveAll ds ht
  have hstep := hh.written_mutation hr m.context kind m.args hreachable.sound
  rw [← h.resolve_mutation hkind hr m.context m.parent m.args] at hstep
  have hafter : after = (view (h.resolve m.context m.field m.parent m.args
      (h.resolveAll ds t).2).2).ledger r.collection := by
    simp only [after, ledgerAfter]
    rw [h.resolveAll_append]
    rfl
  have hcreates : Creates e m ↔ kind = .create := by
    rw [Creates, hkind]
    simp
  have hwritten : Resolver.Written (view (h.resolveAll ds t).2).fresh m.args before kind answer
      after := by
    rw [hafter]
    exact hstep
  rcases hwritten.length_cases with ⟨hcreate, hvoid, hlength⟩ | ⟨hvoid, hlength⟩
  · exact .inl ⟨hcreates.2 hcreate, hvoid, hlength⟩
  · exact .inr ⟨fun hc => hvoid (hcreates.1 hc), hlength⟩

/-- Whatever was called before, the accessor of a single record answers the oldest record. -/
theorem answerAfter_recordField (hone : e.maxOne = true) (ds : List FieldCall)
    (context : Option RequestContext) (parent : Value) (args : Argument.Arguments) :
    h.answerAfter ds ⟨context, e.recordField types, parent, args⟩ t =
      .ok ((h.ledgerAfter view r.collection ds t).head?.map fun entry => .ofJson entry.2) := by
  have hsource : (e.recordField types).source = .query e.aliasName .singleton := by
    rw [Entity.recordField, if_pos hone]
    rfl
  have hsound := (hh.reachable_resolveAll ds ht).sound.collections r.collection
  have hfirst := hsound.find_first
  unfold answerAfter ledgerAfter Host.resolve
  simp only [hsource, hr, Resolver.query, Resolver.singleton]
  rw [hh.bound e.aliasName r hr]
  simp only [Resolver.call, Repository.findOne, Repository.within, Repository.onPart,
    Store.repository, hfirst, Store.ledger, Resolver.ofRecord, Option.map_map]
  rfl

end InMemory

end Host

/-- **A single record stays single exactly when it is created once.** Take an entity that is
flagged to hold one record at most, a collection that starts without records, and any mutations of
the entity under any policy. The collection holds at most one record after every step if and only if
every creation that shows a record finds the collection empty; nothing else in the interface keeps
a second record out. When there are more, the accessor of the single record answers the oldest of
them, and null only when there is none. -/
theorem single_iff_created_once {h : Host σ} {view : σ → Store} {put : Store → σ → σ}
    (hh : h.InMemory view put) {e : Entity} {types : EntityTypes} {r : Repository σ}
    (hone : e.maxOne = true) (hr : h.repositories.get? e.aliasName = some r) {t : σ}
    (ht : (view t).Reachable) (hempty : (view t).ledger r.collection = [])
    {ms : List FieldCall} (hms : ∀ m ∈ ms, m.field ∈ e.mutationFields types) :
    ((∀ ds, ds <+: ms → (h.ledgerAfter view r.collection ds t).length ≤ 1) ↔
      ∀ ds m, ds ++ [m] <+: ms → Host.Creates e m →
        Resolver.isVoid (h.answerAfter ds m t) = false →
        h.ledgerAfter view r.collection ds t = []) ∧
    ∀ ds, ds <+: ms → ∀ (context : Option RequestContext) (parent : Value)
        (args : Argument.Arguments),
      h.answerAfter ds ⟨context, e.recordField types, parent, args⟩ t =
        .ok ((h.ledgerAfter view r.collection ds t).head?.map fun entry => .ofJson entry.2) := by
  have hstep : ∀ ds m, ds ++ [m] <+: ms → _ := fun ds m hds =>
    hh.length_ledgerAfter_concat hr ht (hms m (hds.subset (by simp))) ds
  refine ⟨⟨fun hsingle ds m hds hcreates hshown => ?_, fun honce ds => ?_⟩,
    fun ds _ => hh.answerAfter_recordField hr ht hone ds⟩
  · have hafter := hsingle (ds ++ [m]) hds
    rcases hstep ds m hds with ⟨-, -, hlength⟩ | ⟨hvoid, -⟩
    · exact List.eq_nil_of_length_eq_zero (by omega)
    · rw [hvoid hcreates] at hshown
      cases hshown
  · -- by induction on the calls that were made, the last of which adds a record to none or adds none
    induction ds using List.reverseRecOn with
    | nil =>
      intro _
      have hnone : h.ledgerAfter view r.collection [] t = [] := hempty
      simp [hnone]
    | append_singleton ds m ih =>
      intro hds
      have hbefore := ih ((List.prefix_append ds [m]).trans hds)
      rcases hstep ds m hds with ⟨hcreates, hshown, hlength⟩ | ⟨-, hlength⟩
      · rw [honce ds m hds hcreates hshown] at hlength
        exact Nat.le_of_eq hlength
      · exact Nat.le_trans hlength hbefore

/-! ### A second record of settings -/

/-- Settings, of which there should be one record. -/
def settings : Entity := { Entity.bare "settings" with maxOne := true }

def settingsTypes : EntityTypes :=
  ⟨"settings", "settingsEntity", "settingsEntityFilter", "settingsEntitySort", "settingsInput"⟩

/-- Settings in memory, which only those who are known may change. -/
def settingsHost : Host Store where
  catalog := ⟨[settings]⟩
  schema := .ofTypes [] .standard
  repositories := RepositoryRegistry.empty.register "settings" (Store.repository "settings")
  check := MutationPolicy.requireIdentity.check

def createSettings (id : String) : FieldCall where
  context := some ⟨some ⟨"u1"⟩, "q1"⟩
  field := settings.mutationField "settingsCreate" (.named "settings") "Create a settings record"
    (Entity.recordArgument settingsTypes) .create
  parent := .null
  args := [("record", .object [("_id", .str id)])]

theorem settingsHost_inMemory : settingsHost.InMemory id fun s _ => s where
  view_put _ _ := rfl
  bound aliasName r hr := by
    obtain ⟨-, rfl⟩ : "settings" = aliasName ∧ Store.repository "settings" = r := by
      simpa [settingsHost, RepositoryRegistry.get?, RepositoryRegistry.register, Fields.get?,
        Fields.insert, RepositoryRegistry.empty] using hr
    rfl
  apart _ _ := rfl

theorem createSettings_mem (id : String) :
    (createSettings id).field ∈ settings.mutationFields settingsTypes := .head _

theorem ledgerAfter_createSettings (supply : Nat → String) :
    settingsHost.ledgerAfter id "settings" [createSettings "a"] (.start supply) =
      [("a", .obj [("_id", .str "a")])] := by
  have hcreate := (Store.Sound.start supply).create "settings" (.obj [("_id", .str "a")])
  refine hcreate.own.trans ?_
  rw [Store.ledger_start]
  rfl

/-- Two creations make two records, and the accessor answers the first. -/
theorem single_iff_created_once_settings :
    let creations := [createSettings "a", createSettings "b"]
    let empty := Store.start fun _ => "n1"
    settingsHost.InMemory id (fun s _ => s) ∧ empty.Reachable ∧ empty.ledger "settings" = [] ∧
      (∀ m ∈ creations, m.field ∈ settings.mutationFields settingsTypes) ∧
      ¬ (∀ ds, ds <+: creations → (settingsHost.ledgerAfter id "settings" ds empty).length ≤ 1) ∧
      settingsHost.answerAfter [createSettings "a"]
          ⟨none, settings.recordField settingsTypes, .null, []⟩ empty =
        .ok (some (.object [("_id", .str "a")])) := by
  intro creations empty
  have hreachable : empty.Reachable := .start _
  have hempty : empty.ledger "settings" = [] := Store.ledger_start _ _
  have hcreations : ∀ m ∈ creations, m.field ∈ settings.mutationFields settingsTypes := by
    simp only [creations, List.forall_mem_cons]
    exact ⟨createSettings_mem "a", createSettings_mem "b", List.forall_mem_nil _⟩
  have hfirst := ledgerAfter_createSettings fun _ => "n1"
  obtain ⟨hsingle, haccessor⟩ := single_iff_created_once settingsHost_inMemory (e := settings)
    (r := Store.repository "settings") rfl rfl hreachable hempty hcreations
  refine ⟨settingsHost_inMemory, hreachable, hempty, hcreations, fun hone => ?_, ?_⟩
  · -- the second creation shows a record although the first one is there
    have hnone := hsingle.1 hone [createSettings "a"] (createSettings "b") (List.prefix_refl _)
      rfl rfl
    exact List.cons_ne_nil _ _ (hfirst.symm.trans hnone)
  · have hshown := haccessor [createSettings "a"] (List.prefix_append _ [createSettings "b"]) none
      .null []
    exact hshown.trans (congrArg (fun l : Ledger => Except.ok (l.head?.map _)) hfirst)

end EntityGraph
