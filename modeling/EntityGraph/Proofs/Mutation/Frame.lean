import EntityGraph.Proofs.Mutation.Guard
import EntityGraph.Proofs.Store.Ledgers

/-!
What a mutation may touch. In memory, a mutation changes at most one record: the one that the
policy was told about, or one that was not there before. The other records of the collection keep
their places, and the other collections are as they were. A mutation that answers null or an error
has changed no record at all.
-/

namespace EntityGraph

open Repository (LoggedCall)

variable {σ : Type}

/-! ### Ledgers under mutations -/

/-- What becomes of the ledger of a collection when a mutation addresses a record of it, or none.
It is left alone, or a new record comes last, or the addressed one is replaced in its place, or the
addressed one is gone. -/
inductive Ledger.Touched : MutationKind → Option String → Ledger → Ledger → Prop
  | untouched {kind : MutationKind} {address : Option String} {l : Ledger} :
      Touched kind address l l
  | created {l : Ledger} {id : String} {record : Json} :
      id ∉ l.keys → Touched .create none l (l ++ [(id, record)])
  | updated {l : Ledger} {id : String} {record : Json} :
      id ∈ l.keys → Touched .update (some id) l (l.replace id record)
  | removed {l : Ledger} {id : String} : Touched .remove (some id) l (l.erase id)

namespace Resolver

/-- An answer without a value: an error, or null. -/
def isVoid : Except ApiError (Option Value) → Bool
  | .error _ | .ok none => true
  | .ok (some v) => v.isNull

/-- A step that answers a mutation and touches at most one record of a collection. -/
structure Framed (name : String) (kind : MutationKind) (address : Option String) (s : Store)
    (r : Except ApiError (Option Value) × Store) : Prop where
  others : ∀ other, other ≠ name → r.2.ledger other = s.ledger other
  own : Ledger.Touched kind address (s.ledger name) (r.2.ledger name)
  void : isVoid r.1 = true → r.2.ledger name = s.ledger name

theorem state_call {α : Type} (f : α → Option Value) (c : Call σ α) (s : σ) :
    (call f c s).2 = (c s).2 := by
  rcases hc : c s with ⟨_ | _, _⟩ <;> simp [call, hc]

theorem state_answerCall (r : Repository σ) (c : LoggedCall) (s : σ) :
    (answerCall r c s).2 = r.after c s := by
  cases c <;> exact state_call _ _ s

/-- A call is framed if it does to a ledger what mutations may do, and shows a value when it does
anything. -/
theorem framed_call {α : Type} {s : Store} {name : String} {kind : MutationKind}
    {address : Option String} {c : Call Store α} {l : Except RepositoryError α × Ledger}
    (f : α → Option Value) (hc : s.Mirrors name (c s) l)
    (hown : Ledger.Touched kind address (s.ledger name) l.2)
    (hshown : l.2 = s.ledger name ∨ ∃ a v, l.1 = .ok a ∧ f a = some v ∧ v.isNull = false) :
    Framed name kind address s (call f c s) := by
  have hstate : (call f c s).2 = (c s).2 := state_call f c s
  refine ⟨hstate ▸ hc.others, hstate ▸ hc.own ▸ hown, fun hvoid => ?_⟩
  -- an answer without a value leaves only the case in which the ledger is the same
  rcases hshown with hsame | ⟨a, v, ha, hv, hnull⟩
  · rw [hstate, hc.own, hsame]
  · have hshows : (call f c s).1 = .ok (some v) := by
      unfold call
      rw [show c s = (.ok a, (c s).2) from Prod.ext (hc.answer.trans ha) rfl]
      exact congrArg Except.ok hv
    rw [hshows, isVoid, hnull] at hvoid
    cases hvoid

section

variable {s : Store} (h : s.Sound)
include h

theorem framed_create (name : String) (record : Json) :
    Framed name .create none s (answerCall (Store.repository name) (.create record) s) := by
  have hstep := h.create name record
  rcases (s.ledger name).create_cases _ s.fresh record with ⟨e, hl⟩ | ⟨id, fs, hnew, -, hl⟩
  · rw [hl] at hstep
    exact framed_call _ hstep .untouched (.inl rfl)
  · rw [hl] at hstep
    exact framed_call _ hstep (.created hnew)
      (.inr ⟨Collection.stored id fs, .ofJson (Collection.stored id fs), rfl, rfl, rfl⟩)

/-- The record that an update answers is an object, since the one it replaces is. -/
theorem framed_update (name id : String) (changes : Json) :
    Framed name .update (some id) s
      (answerCall (Store.repository name) (.update id changes) s) := by
  have hstep := h.update name id changes
  rcases (s.ledger name).update_cases id changes with ⟨e, hl⟩ | hl | ⟨fs, record, hmem, hl⟩
  · rw [hl] at hstep
    exact framed_call _ hstep .untouched (.inl rfl)
  · rw [hl] at hstep
    exact framed_call _ hstep .untouched (.inl rfl)
  · rw [hl] at hstep
    obtain ⟨gs, hobject⟩ := ((h.ledgers name).keyed _ hmem).merge fs
    exact framed_call _ hstep (.updated (List.mem_map_of_mem hmem))
      (.inr ⟨_, _, rfl, congrArg (fun v => some (Value.ofJson v)) hobject, rfl⟩)

theorem framed_delete (name id : String) :
    Framed name .remove (some id) s
      (answerCall (Store.repository name) (.deleteById id) s) :=
  framed_call (fun _ => some (.bool true)) (h.deleteById name id) .removed
    (.inr ⟨_, _, rfl, rfl, rfl⟩)

/-- **A write touches at most the record that the policy was told about**, or a new one. -/
theorem framed_write (name : String) (kind : MutationKind) (args : Argument.Arguments) :
    Framed name kind (target? kind args) s (write kind (Store.repository name) args s) := by
  rw [write_eq]
  cases hw : writeOf? kind args with
  | none => exact ⟨fun _ _ => rfl, .untouched, fun _ => rfl⟩
  | some c =>
    have haddress := address_writeOf? hw
    cases kind with
    | create =>
      obtain ⟨record, -, rfl⟩ := Option.map_eq_some_iff.1 hw
      exact framed_create h name record
    | update =>
      obtain ⟨record, -, hid⟩ := Option.bind_eq_some_iff.1 hw
      obtain ⟨id, -, rfl⟩ := Option.map_eq_some_iff.1 hid
      exact haddress ▸ framed_update h name id record
    | remove =>
      obtain ⟨id, -, rfl⟩ := Option.map_eq_some_iff.1 hw
      exact haddress ▸ framed_delete h name id

end

theorem reachable_write {s : Store} (h : s.Reachable) (name : String) (kind : MutationKind)
    (args : Argument.Arguments) : (write kind (Store.repository name) args s).2.Reachable := by
  rw [write_eq]
  cases writeOf? kind args with
  | none => exact h
  | some c => exact state_answerCall (Store.repository name) c s ▸ .call name c h

end Resolver

/-! ### Hosts in memory -/

/-- A host on a state that has a store as a part. Every repository of the host is a collection of
the store, and the policy, which may keep what it likes in the rest of the state, does not touch
the store. -/
structure Host.InMemory (h : Host σ) (view : σ → Store) (put : Store → σ → σ) : Prop where
  view_put : ∀ s t, view (put s t) = s
  bound : ∀ aliasName r, h.repositories.get? aliasName = some r →
    r = (Store.repository r.collection).within view put
  apart : ∀ q t, view (h.check q t).2 = view t

namespace Resolver

/-- A write on a part of a state is a write, as far as the part is concerned. -/
theorem view_write {view : σ → Store} {put : Store → σ → σ} (hview : ∀ s t, view (put s t) = s)
    (kind : MutationKind) (r : Repository Store) (args : Argument.Arguments) (t : σ) :
    Prod.map id view (write kind (r.within view put) args t) = write kind r args (view t) := by
  rw [write_eq, write_eq]
  cases writeOf? kind args with
  | none => rfl
  | some c =>
    have hcall := answerCall_within view put r c t
    exact (congrArg (Prod.map id view) hcall).trans (Prod.ext rfl (hview _ _))

end Resolver

namespace Host.InMemory

variable {h : Host σ} {view : σ → Store} {put : Store → σ → σ} (hh : h.InMemory view put)
  {aliasName : String} {r : Repository σ} (hr : h.repositories.get? aliasName = some r)
  (context : Option RequestContext) (kind : MutationKind) (args : Argument.Arguments) {t : σ}
include hh hr

/-- A mutation that is allowed writes to its collection of the store, and one that is denied leaves
the store alone. -/
theorem view_mutation (t : σ) :
    let done := Prod.map id view (Resolver.mutation h.check context aliasName r kind args t)
    done = (.ok none, view t) ∨
      done = Resolver.write kind (Store.repository r.collection) args (view t) := by
  have hkept := hh.apart ⟨kind, aliasName, Resolver.target? kind args, context⟩ t
  rw [Resolver.mutation_eq]
  split
  · refine .inr ?_
    rw [hh.bound aliasName r hr, Resolver.view_write hh.view_put, hkept]
    rfl
  · refine .inl ?_
    rw [Prod.map, hkept]
    rfl

theorem framed_mutation (ht : (view t).Sound) :
    Resolver.Framed r.collection kind (Resolver.target? kind args) (view t)
      (Prod.map id view (Resolver.mutation h.check context aliasName r kind args t)) := by
  rcases hh.view_mutation hr context kind args t with hdone | hdone
  · rw [hdone]
    exact ⟨fun _ _ => rfl, .untouched, fun _ => rfl⟩
  · rw [hdone]
    exact Resolver.framed_write ht r.collection kind args

theorem reachable_mutation (ht : (view t).Reachable) :
    (Prod.map id view (Resolver.mutation h.check context aliasName r kind args t)).2.Reachable := by
  rcases hh.view_mutation hr context kind args t with hdone | hdone
  · rw [hdone]
    exact ht
  · rw [hdone]
    exact Resolver.reachable_write ht r.collection kind args

end Host.InMemory

/-- **A mutation changes nothing but the record that the policy was told about.** Whatever calls
came before it, a mutation in memory leaves every other collection as it is. In its own, a creation
appends a record with a new identifier, an update replaces the record it addresses in its place,
and a removal takes the record it addresses away, if they do anything; all other records stay, with
their identifiers and in their order. Every record still starts with the identifier it is stored
under, and the store is one that calls lead to, so the same holds of the next mutation. If the field
resolves to null or to an error, nothing is changed anywhere. -/
theorem mutation_frame {h : Host σ} {view : σ → Store} {put : Store → σ → σ}
    (hh : h.InMemory view put) {t : σ} (ht : (view t).Reachable) {f : FieldDef}
    {aliasName : String} {kind : MutationKind} {r : Repository σ}
    (hf : f.source = .mutation aliasName kind) (hr : h.repositories.get? aliasName = some r)
    (context : Option RequestContext) (parent : Value) (args : Argument.Arguments) :
    let q : MutationRequest := ⟨kind, aliasName, Resolver.target? kind args, context⟩
    let answer := (h.resolve context f parent args t).1
    let s := view (h.resolve context f parent args t).2
    (∀ name, name ≠ r.collection → s.ledger name = (view t).ledger name) ∧
      Ledger.Touched kind q.recordId ((view t).ledger r.collection) (s.ledger r.collection) ∧
      (Resolver.isVoid answer = true → ∀ name, s.ledger name = (view t).ledger name) ∧
      s.Reachable ∧ ∀ name, (s.ledger name).WellFormed := by
  rw [h.resolve_mutation hf hr]
  obtain ⟨hothers, hown, hvoid⟩ := hh.framed_mutation hr context kind args ht.sound
  have hreachable := hh.reachable_mutation hr context kind args ht
  refine ⟨hothers, hown, fun hv name => ?_, hreachable, hreachable.sound.ledgers⟩
  by_cases hname : name = r.collection
  · exact hname ▸ hvoid hv
  · exact hothers name hname

theorem noteHost_inMemory : noteHost.InMemory id fun s _ => s where
  view_put _ _ := rfl
  bound aliasName r hr := by
    obtain ⟨-, rfl⟩ : "note" = aliasName ∧ Store.repository "note" = r := by
      simpa [noteHost, RepositoryRegistry.get?, RepositoryRegistry.register, Fields.get?,
        Fields.insert, RepositoryRegistry.empty] using hr
    rfl
  apart _ _ := rfl

/-- Two notes, made one after the other. -/
def twoNotes : Store :=
  (Store.repository "note").after (.create (.obj [("text", .str "b")]))
    ((Store.repository "note").after (.create (.obj [("_id", .str "n1")])) (.start fun _ => "n2"))

theorem twoNotes_reachable : twoNotes.Reachable := .call "note" _ (.call "note" _ (.start _))

theorem twoNotes_ledger :
    twoNotes.ledger "note" =
      [ ("n1", .obj [("_id", .str "n1")]),
        ("n2", .obj [("_id", .str "n2"), ("text", .str "b")]) ] := by
  have hstart := Store.Sound.start fun _ => "n2"
  have hfirst := hstart.create "note" (.obj [("_id", .str "n1")])
  have hsecond := hfirst.sound.create "note" (.obj [("text", .str "b")])
  refine hsecond.own.trans ?_
  rw [hfirst.own, Store.ledger_start]
  rfl

/-- The first of two notes is updated in its place. -/
theorem mutation_frame_note :
    noteHost.InMemory id (fun s _ => s) ∧ twoNotes.Reachable ∧
      ∃ s, (noteHost.resolve (some ⟨some ⟨"u1"⟩, "q1"⟩) (noteMutation .update) .null
          [("record", .object [("_id", .str "n1"), ("text", .str "a")])] twoNotes).2 = s ∧
        (∀ name, name ≠ "note" → s.ledger name = twoNotes.ledger name) ∧
        Ledger.Touched .update (some "n1") (twoNotes.ledger "note") (s.ledger "note") ∧
        s.ledger "note" =
          [ ("n1", .obj [("_id", .str "n1"), ("text", .str "a")]),
            ("n2", .obj [("_id", .str "n2"), ("text", .str "b")]) ] := by
  obtain ⟨hothers, htouched, -⟩ := mutation_frame noteHost_inMemory twoNotes_reachable
    (f := noteMutation .update) (r := Store.repository "note") rfl rfl
    (some ⟨some ⟨"u1"⟩, "q1"⟩) .null
    [("record", .object [("_id", .str "n1"), ("text", .str "a")])]
  have hown := (twoNotes_reachable.sound.update "note" "n1"
    (.obj [("_id", .str "n1"), ("text", .str "a")])).own
  refine ⟨noteHost_inMemory, twoNotes_reachable, _, rfl, hothers, htouched, hown.trans ?_⟩
  rw [twoNotes_ledger]
  rfl

end EntityGraph
