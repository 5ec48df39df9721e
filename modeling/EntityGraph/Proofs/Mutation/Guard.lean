import EntityGraph.Execution.Basic
import EntityGraph.Repository.Database

/-!
Mutations and their policy. A host is watched while it resolves a mutation: every question to the
policy and every call on a repository is written down in the order in which they happen. The policy
comes first and is asked once, about the record that the write is for; what it denies never gets
to a repository, and what it allows makes one call at most.
-/

namespace EntityGraph

open Repository (LoggedCall)

variable {σ : Type}

/-! ### Watching a host -/

/-- What can be seen of a mutation from outside: a question to the policy, or a call on the
repository of a collection. -/
inductive Event where
  | asked (q : MutationRequest)
  | called (collection : String) (c : LoggedCall)

/-- A state with the events so far. -/
abbrev Watched (σ : Type) := σ × List Event

/-- Writes an event down. -/
def Watched.note (e : Event) (t : Watched σ) : Watched σ := (t.1, t.2 ++ [e])

/-- The repository, with its calls written down. -/
def Repository.watched (r : Repository σ) : Repository (Watched σ) :=
  (r.within Prod.fst fun s t => (s, t.2)).logged fun collection c =>
    Watched.note (.called collection c)

/-- The check, with its questions written down. -/
def PolicyCheck.watched (check : PolicyCheck σ) : PolicyCheck (Watched σ) := fun q t =>
  let (decision, s) := check q t.1
  (decision, Watched.note (.asked q) (s, t.2))

/-- The host, with the questions to its policy and the calls on its repositories written down. -/
def Host.watched (h : Host σ) : Host (Watched σ) where
  catalog := h.catalog
  schema := h.schema
  repositories := ⟨h.repositories.bindings.map fun b => (b.1, b.2.watched)⟩
  check := PolicyCheck.watched h.check

/-- The mutation that a call carries out. -/
def Repository.LoggedCall.kind? : LoggedCall → Option MutationKind
  | .create _ => some .create
  | .update .. => some .update
  | .deleteById _ => some .remove
  | .count _ | .findById _ | .find _ => none

/-- The record that a write addresses. -/
def Repository.LoggedCall.address? : LoggedCall → Option String
  | .update id _ => some id
  | .deleteById id => some id
  | _ => none

theorem Host.get?_watched (h : Host σ) (aliasName : String) :
    h.watched.repositories.get? aliasName =
      (h.repositories.get? aliasName).map Repository.watched :=
  Fields.get?_map _ _ _

/-! ### The write of a mutation -/

namespace Resolver

/-- The call that the arguments of a mutation ask for. -/
def writeOf? (kind : MutationKind) (args : Argument.Arguments) : Option LoggedCall :=
  match kind with
  | .create => (recordOf args).toOption.map .create
  | .update => (recordOf args).toOption.bind fun record =>
      (recordId? record).map fun id => .update id record
  | .remove => (idOf? args).map .deleteById

theorem kind_writeOf? {kind : MutationKind} {args : Argument.Arguments} {c : LoggedCall}
    (h : c ∈ writeOf? kind args) : c.kind? = some kind := by
  cases kind with
  | create =>
    obtain ⟨record, -, rfl⟩ := Option.map_eq_some_iff.1 h
    rfl
  | update =>
    obtain ⟨record, -, hid⟩ := Option.bind_eq_some_iff.1 h
    obtain ⟨id, -, rfl⟩ := Option.map_eq_some_iff.1 hid
    rfl
  | remove =>
    obtain ⟨id, -, rfl⟩ := Option.map_eq_some_iff.1 h
    rfl

theorem target?_update (args : Argument.Arguments) :
    target? .update args = (recordOf args).toOption.bind recordId? := by
  simp only [target?, addressed?]
  cases recordOf args <;> rfl

/-- A write addresses the record that the policy was told about. -/
theorem address_writeOf? {kind : MutationKind} {args : Argument.Arguments} {c : LoggedCall}
    (h : c ∈ writeOf? kind args) : c.address? = target? kind args := by
  cases kind with
  | create =>
    obtain ⟨record, -, rfl⟩ := Option.map_eq_some_iff.1 h
    rfl
  | update =>
    obtain ⟨record, hrecord, hid⟩ := Option.bind_eq_some_iff.1 h
    obtain ⟨id, hid', rfl⟩ := Option.map_eq_some_iff.1 hid
    rw [target?_update, hrecord, Option.bind_some, hid']
    rfl
  | remove =>
    obtain ⟨id, hid, rfl⟩ := Option.map_eq_some_iff.1 h
    exact hid.symm

/-- A record that the policy was told about is written to. -/
theorem isSome_writeOf? {kind : MutationKind} {args : Argument.Arguments}
    (h : (target? kind args).isSome = true) : (writeOf? kind args).isSome = true := by
  obtain ⟨id, hid⟩ := Option.isSome_iff_exists.1 h
  cases kind with
  | create => cases hid
  | update =>
    rw [target?_update] at hid
    obtain ⟨record, hrecord, hid⟩ := Option.bind_eq_some_iff.1 hid
    simp [writeOf?, hrecord, hid]
  | remove => simp [writeOf?, show idOf? args = some id from hid]

/-- Answers a call. -/
def answerCall (r : Repository σ) : LoggedCall → Resolve σ
  | .count f => call (fun (n : Nat) => some (.int n)) (r.count f)
  | .findById id => call ofRecord (r.findById id)
  | .find q => call (fun records => some (.list (records.map Value.ofJson))) (r.find q)
  | .create record => call (fun created => some (.ofJson created)) (r.create record)
  | .update id changes => call ofRecord (r.update id changes)
  | .deleteById id => call (fun _ => some (.bool true)) (r.deleteById id)

/-- The answer of a mutation that makes no call. -/
def idle (kind : MutationKind) (args : Argument.Arguments) : Except ApiError (Option Value) :=
  match kind with
  | .create | .update =>
    match recordOf args with
    | .error e => .error (.argument e)
    | .ok _ => .ok none
  | .remove => .error (.argument (.missing "id"))

/-- **A write makes the call that its arguments ask for**, if they ask for one, and no other. -/
theorem write_eq (kind : MutationKind) (r : Repository σ) (args : Argument.Arguments) :
    write kind r args =
      match writeOf? kind args with
      | some c => answerCall r c
      | none => fun s => (idle kind args, s) := by
  cases kind with
  | create =>
    simp only [write, create, writeOf?, idle]
    cases recordOf args <;> rfl
  | update =>
    simp only [write, update, writeOf?, idle]
    cases recordOf args with
    | error e => rfl
    | ok record =>
      simp only [Except.toOption, Option.bind_some]
      cases recordId? record <;> rfl
  | remove =>
    simp only [write, remove, writeOf?, idle]
    cases idOf? args <;> rfl

/-- A call on a part of a state leaves the rest as it is. -/
theorem call_onPart {τ α : Type} (get : τ → σ) (set : σ → τ → τ) (f : α → Option Value)
    (c : Call σ α) (t : τ) :
    call f (Repository.onPart get set c) t =
      ((call f c (get t)).1, set (call f c (get t)).2 t) := by
  rcases hc : c (get t) with ⟨_ | _, _⟩ <;> simp [call, Repository.onPart, hc]

theorem answerCall_within {τ : Type} (get : τ → σ) (set : σ → τ → τ) (r : Repository σ)
    (c : LoggedCall) (t : τ) :
    answerCall (r.within get set) c t =
      ((answerCall r c (get t)).1, set (answerCall r c (get t)).2 t) := by
  cases c <;> exact call_onPart get set _ _ t

theorem answerCall_watched (r : Repository σ) (c : LoggedCall) (s : σ) (log : List Event) :
    answerCall r.watched c (s, log) =
      ((answerCall r c s).1, (answerCall r c s).2, log ++ [.called r.collection c]) := by
  -- a call is written down before it runs, where it does not see it
  have hnoted : answerCall r.watched c (s, log) =
      answerCall (r.within Prod.fst fun s (t : Watched σ) => (s, t.2)) c
        (s, log ++ [.called r.collection c]) := by
    cases c <;> rfl
  rw [hnoted, answerCall_within]

theorem write_watched (kind : MutationKind) (r : Repository σ) (args : Argument.Arguments) (s : σ)
    (log : List Event) :
    write kind r.watched args (s, log) =
      ((write kind r args s).1, (write kind r args s).2,
        log ++ (writeOf? kind args).toList.map (.called r.collection)) := by
  rw [write_eq, write_eq]
  cases writeOf? kind args with
  | none => simp
  | some c => exact answerCall_watched r c s log

/-- A mutation that is allowed writes, and one that is denied answers null. -/
theorem mutation_eq (check : PolicyCheck σ) (context : Option RequestContext) (aliasName : String)
    (r : Repository σ) (kind : MutationKind) (args : Argument.Arguments) (s : σ) :
    mutation check context aliasName r kind args s =
      if (check ⟨kind, aliasName, target? kind args, context⟩ s).1.isAllowed then
        write kind r args (check ⟨kind, aliasName, target? kind args, context⟩ s).2
      else (.ok none, (check ⟨kind, aliasName, target? kind args, context⟩ s).2) := by
  unfold mutation guarded
  rcases check ⟨kind, aliasName, target? kind args, context⟩ s with ⟨_ | reason, s'⟩ <;> rfl

/-- A mutation asks the policy first. If it is allowed, it makes the call of its write. -/
theorem mutation_watched (check : PolicyCheck σ) (context : Option RequestContext)
    (aliasName : String) (r : Repository σ) (kind : MutationKind) (args : Argument.Arguments)
    (s : σ) (log : List Event) :
    mutation (PolicyCheck.watched check) context aliasName r.watched kind args (s, log) =
      ((mutation check context aliasName r kind args s).1,
        (mutation check context aliasName r kind args s).2,
        log ++ .asked ⟨kind, aliasName, target? kind args, context⟩ ::
          (if (check ⟨kind, aliasName, target? kind args, context⟩ s).1.isAllowed then
            (writeOf? kind args).toList.map (.called r.collection) else [])) := by
  have hasked (q : MutationRequest) : PolicyCheck.watched check q (s, log) =
      ((check q s).1, (check q s).2, log ++ [.asked q]) := rfl
  rw [mutation_eq, mutation_eq, hasked]
  split
  · rw [write_watched, List.append_assoc]
    rfl
  · rfl

end Resolver

/-! ### Mutations of requests -/

/-- A field that is resolved: who asks, the field, the value it stands on and its arguments. -/
structure FieldCall where
  context : Option RequestContext
  field : FieldDef
  parent : Value
  args : Argument.Arguments

namespace FieldCall

/-- The field is a mutation. -/
def IsMutation (m : FieldCall) : Prop := ∃ a k, m.field.source = .mutation a k

/-- It is not known who asks. -/
def IsAnonymous (m : FieldCall) : Prop := m.context.bind RequestContext.identity = none

end FieldCall

namespace Host

/-- Resolves fields one after the other. -/
def resolveAll (h : Host σ) : List FieldCall → σ → List (Except ApiError (Option Value)) × σ
  | [], s => ([], s)
  | m :: ms, s =>
    let (answer, s) := h.resolve m.context m.field m.parent m.args s
    let (answers, s) := h.resolveAll ms s
    (answer :: answers, s)

theorem resolve_mutation (h : Host σ) {f : FieldDef} {aliasName : String} {kind : MutationKind}
    {r : Repository σ} (hf : f.source = .mutation aliasName kind)
    (hr : h.repositories.get? aliasName = some r) (context : Option RequestContext)
    (parent : Value) (args : Argument.Arguments) :
    h.resolve context f parent args =
      Resolver.mutation h.check context aliasName r kind args := by
  simp only [resolve, hf, hr]

/-- Where an identity is required, mutations without one answer null and change nothing. -/
theorem resolve_anonymous (h : Host σ) (hcheck : h.check = MutationPolicy.requireIdentity.check)
    {m : FieldCall} (hm : m.IsMutation) (hwho : m.IsAnonymous) (s : σ) :
    h.resolve m.context m.field m.parent m.args s = (.ok none, s) := by
  obtain ⟨a, k, hf⟩ := hm
  cases hr : h.repositories.get? a with
  | none => simp only [resolve, hf, hr, Resolver.answer]
  | some r =>
    have hdenied :
        (h.check ⟨k, a, Resolver.target? k m.args, m.context⟩ s).1.isAllowed = false := by
      rw [hcheck]
      simp [MutationPolicy.check, MutationPolicy.requireIdentity, MutationRequest.identity?,
        show m.context.bind RequestContext.identity = none from hwho, PolicyDecision.isAllowed]
    rw [h.resolve_mutation hf hr, Resolver.mutation_eq, hdenied, hcheck]
    rfl

end Host

/-- **Every mutation asks the policy first, once, about the record that it writes.** Whatever the
arguments are, the question comes before any call, and names the record that the call of the
mutation would address. If the policy denies, no call is made and the answer is null, the same for
all arguments and all records. If it allows, the one call that the arguments ask for is made, or
none. Where an identity is required, mutations without one answer null and leave the state as it
is, however many there are. -/
theorem mutations_guarded (h : Host σ) :
    (∀ (f : FieldDef) (aliasName : String) (kind : MutationKind) (r : Repository σ),
      f.source = .mutation aliasName kind → h.repositories.get? aliasName = some r →
      ∀ (context : Option RequestContext) (parent : Value) (args : Argument.Arguments) (s : σ)
        (log : List Event),
        let q : MutationRequest := ⟨kind, aliasName, Resolver.target? kind args, context⟩
        let write := Resolver.writeOf? kind args
        (∀ c ∈ write, c.kind? = some kind ∧ c.address? = q.recordId) ∧
        (q.recordId.isSome = true → write.isSome = true) ∧
        h.watched.resolve context f parent args (s, log) =
          ((h.resolve context f parent args s).1, (h.resolve context f parent args s).2,
            log ++ .asked q :: (if (h.check q s).1.isAllowed then
              write.toList.map (.called r.collection) else [])) ∧
        ((h.check q s).1.isAllowed = false →
          h.resolve context f parent args s = (.ok none, (h.check q s).2))) ∧
    (h.check = MutationPolicy.requireIdentity.check →
      ∀ (ms : List FieldCall) (s : σ), (∀ m ∈ ms, m.IsMutation ∧ m.IsAnonymous) →
        h.resolveAll ms s = (ms.map fun _ => .ok none, s)) := by
  refine ⟨fun f aliasName kind r hf hr context parent args s log => ?_, fun hcheck ms s hms => ?_⟩
  · have hwatched : h.watched.repositories.get? aliasName = some r.watched := by
      rw [h.get?_watched, hr]
      rfl
    rw [h.watched.resolve_mutation hf hwatched, h.resolve_mutation hf hr]
    exact ⟨fun c hc => ⟨Resolver.kind_writeOf? hc, Resolver.address_writeOf? hc⟩,
      Resolver.isSome_writeOf?,
      Resolver.mutation_watched h.check context aliasName r kind args s log,
      fun hdenied => by rw [Resolver.mutation_eq, hdenied]; rfl⟩
  · induction ms generalizing s with
    | nil => rfl
    | cons m ms ih =>
      obtain ⟨⟨hm, hwho⟩, hms⟩ := List.forall_mem_cons.1 hms
      simp only [Host.resolveAll, h.resolve_anonymous hcheck hm hwho, ih s hms, List.map_cons]

/-! ### A host of notes -/

/-- Notes in memory, which only those who are known may change. -/
def noteHost : Host Store where
  catalog := ⟨[.bare "note"]⟩
  schema := .ofTypes [] .standard
  repositories := RepositoryRegistry.empty.register "note" (Store.repository "note")
  check := MutationPolicy.requireIdentity.check

/-- A mutation of notes. -/
def noteMutation (kind : MutationKind) : FieldDef :=
  (Entity.bare "note").mutationField "note" (.named "note") "Change notes"
    (.plain "record" (.named "noteInput")) kind

/-- A note is updated by someone who is known, and left alone by those who are not. -/
theorem mutations_guarded_note :
    (noteHost.watched.resolve (some ⟨some ⟨"u1"⟩, "q1"⟩) (noteMutation .update) .null
        [("record", .object [("_id", .int 1), ("text", .null)])]
        (.start fun _ => "n1", [])).2.2 =
      [ .asked ⟨.update, "note", some "1", some ⟨some ⟨"u1"⟩, "q1"⟩⟩,
        .called "note" (.update "1" (.obj [("_id", .str "1"), ("text", .null)])) ] ∧
    (noteHost.watched.resolve none (noteMutation .update) .null
        [("record", .object [("_id", .int 1), ("text", .null)])]
        (.start fun _ => "n1", [])).2.2 = [.asked ⟨.update, "note", some "1", none⟩] ∧
    noteHost.resolveAll
        [ ⟨none, noteMutation .create, .null, []⟩,
          ⟨some ⟨none, "q2"⟩, noteMutation .remove, .null, [("id", .str "1")]⟩ ]
        (.start fun _ => "n1") = ([.ok none, .ok none], .start fun _ => "n1") := by
  obtain ⟨hguarded, hanonymous⟩ := mutations_guarded noteHost
  refine ⟨?_, ?_, hanonymous rfl _ _ ?_⟩
  · obtain ⟨-, -, hlog, -⟩ := hguarded (noteMutation .update) "note" .update
      (Store.repository "note") rfl rfl (some ⟨some ⟨"u1"⟩, "q1"⟩) .null
      [("record", .object [("_id", .int 1), ("text", .null)])] (.start fun _ => "n1") []
    rw [hlog]
    rfl
  · obtain ⟨-, -, hlog, -⟩ := hguarded (noteMutation .update) "note" .update
      (Store.repository "note") rfl rfl none .null
      [("record", .object [("_id", .int 1), ("text", .null)])] (.start fun _ => "n1") []
    rw [hlog]
    rfl
  · simp [FieldCall.IsMutation, FieldCall.IsAnonymous, noteMutation, Entity.mutationField]

end EntityGraph
