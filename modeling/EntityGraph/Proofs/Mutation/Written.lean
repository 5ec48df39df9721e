import EntityGraph.Proofs.Mutation.Frame

/-!
What a mutation answers, next to what it does to the ledger of its collection. A creation shows
the record that it stores, an update the record that it leaves in the place of the old one, and
whatever shows no record has left the ledger alone. A field that is no mutation leaves the whole
store alone.
-/

namespace EntityGraph

variable {σ : Type}

namespace Resolver

/-! ### Answers of writes -/

/-- The answer of a write with some arguments, and the ledger that it leaves. The identifier
`fresh` is for a record that brings none. -/
inductive Written (fresh : String) (args : Argument.Arguments) (l : Ledger) :
    MutationKind → Except ApiError (Option Value) → Ledger → Prop
  | failed {kind : MutationKind} {e : ApiError} : Written fresh args l kind (.error e) l
  | void {kind : MutationKind} : Written fresh args l kind (.ok none) l
  | created {fs : Fields Json} {id : String} :
      recordOf args = .ok (.obj fs) → Collection.newId fresh fs = .ok id → id ∉ l.keys →
      Written fresh args l .create (.ok (some (.ofJson (Collection.stored id fs))))
        (l ++ [(id, Collection.stored id fs)])
  | updated {fs : Fields Json} {id : String} {record : Json} :
      recordOf args = .ok (.obj fs) → recordId? (.obj fs) = some id → l.get? id = some record →
      Written fresh args l .update (.ok (some (.ofJson (Collection.merge fs record))))
        (l.replace id (Collection.merge fs record))
  | removed {id : String} :
      idOf? args = some id →
      Written fresh args l .remove (.ok (some (.bool true))) (l.erase id)

/-- A call that mirrors a step on a ledger answers what the step answers. -/
theorem call_mirrors {α : Type} {s : Store} {name : String} {c : Call Store α}
    {l : Except RepositoryError α × Ledger} (f : α → Option Value)
    (hc : s.Mirrors name (c s) l) :
    (call f c s).1 =
        (match l.1 with
          | .ok a => .ok (f a)
          | .error e => .error (.repository e)) ∧
      (call f c s).2.ledger name = l.2 := by
  refine ⟨?_, state_call f c s ▸ hc.own⟩
  rw [← hc.answer]
  rcases hcall : c s with ⟨_ | _, _⟩ <;> simp [call, hcall]

theorem written_idle (fresh : String) (kind : MutationKind) (args : Argument.Arguments)
    (l : Ledger) : Written fresh args l kind (idle kind args) l := by
  cases kind with
  | remove => exact .failed
  | create | update =>
    simp only [idle]
    cases recordOf args with
    | error e => exact .failed
    | ok record => exact .void

theorem recordOf_of_toOption {args : Argument.Arguments} {record : Json}
    (h : (recordOf args).toOption = some record) : recordOf args = .ok record := by
  cases hrecord : recordOf args with
  | error e => simp [hrecord, Except.toOption] at h
  | ok found => exact congrArg Except.ok (by simpa [hrecord, Except.toOption] using h)

section

variable {s : Store} (h : s.Sound) (name : String) {args : Argument.Arguments}
include h

theorem written_create {record : Json} (hrecord : recordOf args = .ok record) :
    let done := answerCall (Store.repository name) (.create record) s
    Written s.fresh args (s.ledger name) .create done.1 (done.2.ledger name) := by
  obtain ⟨hanswer, hledger⟩ :=
    call_mirrors (fun created => some (Value.ofJson created)) (h.create name record)
  simp only [answerCall]
  rw [hanswer, hledger]
  unfold Ledger.create Ledger.entryFor
  cases record with
  | obj fs =>
    cases hid : Collection.newId s.fresh fs with
    | error e =>
      simp only [Json.asObject?, hid]
      exact .failed
    | ok id =>
      by_cases hmem : id ∈ Fields.keys (s.ledger name)
      · simp only [Json.asObject?, hid, hmem, if_true]
        exact .failed
      · simp only [Json.asObject?, hid, hmem, if_false]
        exact .created hrecord hid hmem
  | _ => exact .failed

theorem written_update {record : Json} {id : String} (hrecord : recordOf args = .ok record)
    (hid : recordId? record = some id) :
    let done := answerCall (Store.repository name) (.update id record) s
    Written s.fresh args (s.ledger name) .update done.1 (done.2.ledger name) := by
  obtain ⟨hanswer, hledger⟩ := call_mirrors ofRecord (h.update name id record)
  simp only [answerCall]
  rw [hanswer, hledger]
  unfold Ledger.update
  cases record with
  | obj fs =>
    cases hold : (s.ledger name).get? id with
    | none => exact .void
    | some old => exact .updated hrecord hid hold
  | _ => exact .failed

theorem written_delete {id : String} (hid : idOf? args = some id) :
    let done := answerCall (Store.repository name) (.deleteById id) s
    Written s.fresh args (s.ledger name) .remove done.1 (done.2.ledger name) := by
  obtain ⟨hanswer, hledger⟩ :=
    call_mirrors (fun _ => some (Value.bool true)) (h.deleteById name id)
  simp only [answerCall]
  rw [hanswer, hledger]
  exact .removed hid

/-- **What a write answers is what it has stored.** -/
theorem written_write (kind : MutationKind) (args : Argument.Arguments) :
    let done := write kind (Store.repository name) args s
    Written s.fresh args (s.ledger name) kind done.1 (done.2.ledger name) := by
  intro done
  simp only [done]
  rw [write_eq]
  cases hw : writeOf? kind args with
  | none => exact written_idle _ kind args _
  | some c =>
    cases kind with
    | create =>
      obtain ⟨record, hrecord, rfl⟩ := Option.map_eq_some_iff.1 hw
      exact written_create h name (recordOf_of_toOption hrecord)
    | update =>
      obtain ⟨record, hrecord, hid⟩ := Option.bind_eq_some_iff.1 hw
      obtain ⟨id, hid', rfl⟩ := Option.map_eq_some_iff.1 hid
      exact written_update h name (recordOf_of_toOption hrecord) hid'
    | remove =>
      obtain ⟨id, hid, rfl⟩ := Option.map_eq_some_iff.1 hw
      exact written_delete h name hid

end

end Resolver

/-! ### Steps of hosts -/

namespace Host

theorem resolveAll_append (h : Host σ) (ms ns : List FieldCall) (t : σ) :
    (h.resolveAll (ms ++ ns) t).2 = (h.resolveAll ns (h.resolveAll ms t).2).2 := by
  induction ms generalizing t with
  | nil => rfl
  | cons m ms ih => exact ih _

namespace InMemory

variable {h : Host σ} {view : σ → Store} {put : Store → σ → σ} (hh : h.InMemory view put)
include hh

/-- A mutation answers what it has stored. -/
theorem written_mutation {aliasName : String} {r : Repository σ}
    (hr : h.repositories.get? aliasName = some r) (context : Option RequestContext)
    (kind : MutationKind) (args : Argument.Arguments) {t : σ} (ht : (view t).Sound) :
    let done := Resolver.mutation h.check context aliasName r kind args t
    Resolver.Written (view t).fresh args ((view t).ledger r.collection) kind done.1
      ((view done.2).ledger r.collection) := by
  intro done
  rcases hh.view_mutation hr context kind args t with hdone | hdone
  · have hanswer : done.1 = .ok none := congrArg Prod.fst hdone
    have hstate : view done.2 = view t := congrArg Prod.snd hdone
    rw [hanswer, hstate]
    exact .void
  · have hwritten := Resolver.written_write ht r.collection kind args
    rw [← hdone] at hwritten
    exact hwritten

theorem view_read {α : Type} {c : Call Store α} (hread : ∀ s, (c s).2 = s) (f : α → Option Value)
    (t : σ) : view (Resolver.call f (Repository.onPart view put c) t).2 = view t := by
  rw [Resolver.call_onPart, hh.view_put, Resolver.state_call, hread]

theorem view_query {aliasName : String} {r : Repository σ}
    (hr : h.repositories.get? aliasName = some r) (ks : FieldKinds) (largest : Option Nat)
    (kind : QueryKind) (args : Argument.Arguments) (t : σ) :
    view (Resolver.query ks largest r kind args t).2 = view t := by
  rw [hh.bound aliasName r hr]
  cases kind with
  | count =>
    simp only [Resolver.query, Resolver.count]
    cases Argument.filterOf ks args with
    | error e => rfl
    | ok f => exact hh.view_read (fun _ => rfl) _ t
  | findById =>
    simp only [Resolver.query, Resolver.findById]
    cases Resolver.idOf? args with
    | none => rfl
    | some id => exact hh.view_read (fun _ => rfl) _ t
  | list =>
    simp only [Resolver.query, Resolver.list]
    cases Argument.findQuery ks largest args with
    | error e => rfl
    | ok q => exact hh.view_read (fun _ => rfl) _ t
  | singleton =>
    simp only [Resolver.query, Resolver.singleton]
    rw [Resolver.state_call]
    exact hh.view_put _ t

theorem view_related (aliasName key : String) (parent : Value) (t : σ) :
    view (Resolver.related h.repositories aliasName key parent t).2 = view t := by
  unfold Resolver.related
  cases hr : h.repositories.get? aliasName with
  | none => rfl
  | some r =>
    rcases Resolver.fieldOf? parent key with _ | v
    · rfl
    · cases v with
      | str id =>
        rw [hh.bound aliasName r hr]
        exact hh.view_read (fun _ => rfl) _ t
      | _ => rfl

/-- **A field that is no mutation leaves the store alone.** -/
theorem view_resolve {f : FieldDef} (hf : ∀ a k, f.source ≠ .mutation a k)
    (context : Option RequestContext) (parent : Value) (args : Argument.Arguments) (t : σ) :
    view (h.resolve context f parent args t).2 = view t := by
  unfold Host.resolve
  cases hsource : f.source with
  | mutation a k => exact absurd hsource (hf a k)
  | query a k =>
    cases hr : h.repositories.get? a with
    | none => simp only [hr]; rfl
    | some r =>
      simp only [hr]
      exact hh.view_query hr _ _ k args t
  | computed c =>
    cases c with
    | find a key => exact hh.view_related a key parent t
    | const _ | key _ | parent | fail _ => rfl
  | typeNamed =>
    unfold Resolver.typeNamed
    rcases Fields.get? args "name" with _ | v
    · rfl
    · cases v <;> rfl
  | stored _ | description | typeAspect _ | detail _ => rfl

theorem reachable_resolve (context : Option RequestContext) (f : FieldDef) (parent : Value)
    (args : Argument.Arguments) {t : σ} (ht : (view t).Reachable) :
    (view (h.resolve context f parent args t).2).Reachable := by
  by_cases hf : ∃ a k, f.source = .mutation a k
  · obtain ⟨a, k, hf⟩ := hf
    cases hr : h.repositories.get? a with
    | none =>
      unfold Host.resolve
      simp only [hf, hr]
      exact ht
    | some r =>
      rw [h.resolve_mutation hf hr]
      exact hh.reachable_mutation hr context k args ht
  · rw [hh.view_resolve (fun a k hk => hf ⟨a, k, hk⟩)]
    exact ht

theorem reachable_resolveAll (ms : List FieldCall) {t : σ} (ht : (view t).Reachable) :
    (view (h.resolveAll ms t).2).Reachable := by
  induction ms generalizing t with
  | nil => exact ht
  | cons m ms ih => exact ih (hh.reachable_resolve m.context m.field m.parent m.args ht)

theorem resolve_findById {f : FieldDef} {aliasName : String} {r : Repository σ}
    (hf : f.source = .query aliasName .findById) (hr : h.repositories.get? aliasName = some r)
    {args : Argument.Arguments} {id : String} (hid : Resolver.idOf? args = some id) {t : σ}
    (ht : (view t).Sound) (context : Option RequestContext) (parent : Value) :
    (h.resolve context f parent args t).1 =
      .ok ((((view t).ledger r.collection).get? id).map Value.ofJson) := by
  have hfound : ((view t).database.collection r.collection).findById id =
      ((view t).ledger r.collection).get? id := (ht.collections r.collection).findById_eq id
  unfold Host.resolve
  simp only [hf, hr, Resolver.query, Resolver.findById, hid]
  rw [hh.bound aliasName r hr, Repository.within, Resolver.call_onPart]
  simp only [Resolver.call, Store.repository, hfound]
  rfl

end InMemory

end Host

end EntityGraph
