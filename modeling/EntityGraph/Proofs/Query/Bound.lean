import EntityGraph.Proofs.Mutation.Guard

/-!
Root fields are bound to one repository, the one of their alias. No other repository makes a
difference to what they do, and they call theirs once or not at all. Only mutations write.
-/

namespace EntityGraph

open Repository (LoggedCall)

variable {σ : Type}

/-! ### The call of a query -/

namespace Resolver

/-- The call that the arguments of a query ask for. -/
def readOf? (ks : FieldKinds) (largest : Option Nat) (kind : QueryKind)
    (args : Argument.Arguments) : Option LoggedCall :=
  match kind with
  | .count => (Argument.filterOf ks args).toOption.map .count
  | .findById => (idOf? args).map .findById
  | .list => (Argument.findQuery ks largest args).toOption.map .find
  | .singleton => some (.find (.first .all))

variable {ks : FieldKinds} {largest : Option Nat} {kind : QueryKind} {args : Argument.Arguments}

theorem isWrite_readOf? {c : LoggedCall} (h : c ∈ readOf? ks largest kind args) :
    c.isWrite = false := by
  cases kind with
  | count =>
    obtain ⟨f, -, rfl⟩ := Option.map_eq_some_iff.1 h
    rfl
  | findById =>
    obtain ⟨id, -, rfl⟩ := Option.map_eq_some_iff.1 h
    rfl
  | list =>
    obtain ⟨q, -, rfl⟩ := Option.map_eq_some_iff.1 h
    rfl
  | singleton =>
    obtain rfl := Option.some.inj h
    rfl

theorem findOne_watched (r : Repository σ) (f : Filter) (s : σ) (log : List Event) :
    r.watched.findOne f (s, log) =
      ((r.findOne f s).1, (r.findOne f s).2, log ++ [.called r.collection (.find (.first f))]) := by
  have hfind : r.watched.find (.first f) (s, log) = ((r.find (.first f) s).1,
      (r.find (.first f) s).2, log ++ [.called r.collection (.find (.first f))]) := rfl
  unfold Repository.findOne
  rw [hfind]
  rcases r.find (.first f) s with ⟨_ | _, _⟩ <;> rfl

/-- A query makes the call that its arguments ask for, and no other. -/
theorem query_watched (r : Repository σ) (s : σ) (log : List Event) :
    query ks largest r.watched kind args (s, log) =
      ((query ks largest r kind args s).1, (query ks largest r kind args s).2,
        log ++ (readOf? ks largest kind args).toList.map (.called r.collection)) := by
  cases kind with
  | count =>
    simp only [query, count, readOf?]
    cases Argument.filterOf ks args with
    | error e => simp [refuse, Except.toOption]
    | ok f => exact answerCall_watched r (.count f) s log
  | findById =>
    simp only [query, findById, readOf?]
    cases idOf? args with
    | none => simp [answer]
    | some id => exact answerCall_watched r (.findById id) s log
  | list =>
    simp only [query, list, readOf?]
    cases Argument.findQuery ks largest args with
    | error e => simp [refuse, Except.toOption]
    | ok q => exact answerCall_watched r (.find q) s log
  | singleton =>
    simp only [query, singleton, readOf?, call, findOne_watched]
    rcases r.findOne .all s with ⟨_ | _, _⟩ <;> rfl

end Resolver

/-! ### Root fields -/

/-- A field is bound to the repository of an alias: no other makes a difference to it, and this one
is called once at most, and for a write only by a mutation. -/
structure FieldDef.BoundTo (f : FieldDef) (a : String) : Prop where
  alone {σ : Type} (h : Host σ) {g : RepositoryRegistry σ} :
    g.get? a = h.repositories.get? a →
    ∀ (context : Option RequestContext) (parent : Value) (args : Argument.Arguments),
      Host.resolve { h with repositories := g } context f parent args =
        h.resolve context f parent args
  called {σ : Type} (h : Host σ) {r : Repository σ} :
    h.repositories.get? a = some r →
    ∀ (context : Option RequestContext) (parent : Value) (args : Argument.Arguments) (s : σ)
      (log : List Event),
      ∃ (asked : List MutationRequest) (c : Option LoggedCall),
        h.watched.resolve context f parent args (s, log) =
          ((h.resolve context f parent args s).1, (h.resolve context f parent args s).2,
            log ++ asked.map .asked ++ c.toList.map (.called r.collection)) ∧
        ∀ d ∈ c, d.isWrite = true → ∃ kind, f.source = .mutation a kind

namespace FieldDef

variable {f : FieldDef} {a : String}

theorem boundTo_of_query {kind : QueryKind} (hf : f.source = .query a kind) : f.BoundTo a where
  alone h g hg context parent args := by
    unfold Host.resolve
    simp only [hf, hg]
    rfl
  called h r hr context parent args s log := by
    have hwatched : h.watched.repositories.get? a = some r.watched := by
      rw [h.get?_watched, hr]
      rfl
    refine ⟨[], Resolver.readOf? (h.kindsOf a) h.schema.settings.maxListLimit kind args, ?_,
      fun d hd hwrite => ?_⟩
    · unfold Host.resolve
      simp only [hf, hr, hwatched, List.map_nil, List.append_nil]
      exact Resolver.query_watched r s log
    · rw [Resolver.isWrite_readOf? hd] at hwrite
      cases hwrite

theorem boundTo_of_mutation {kind : MutationKind} (hf : f.source = .mutation a kind) :
    f.BoundTo a where
  alone h g hg context parent args := by
    unfold Host.resolve
    simp only [hf, hg]
  called h r hr context parent args s log := by
    have hwatched : h.watched.repositories.get? a = some r.watched := by
      rw [h.get?_watched, hr]
      rfl
    let q : MutationRequest := ⟨kind, a, Resolver.target? kind args, context⟩
    refine ⟨[q], if (h.check q s).1.isAllowed then Resolver.writeOf? kind args else none, ?_,
      fun _ _ _ => ⟨kind, hf⟩⟩
    rw [h.watched.resolve_mutation hf hwatched, h.resolve_mutation hf hr]
    refine (Resolver.mutation_watched h.check context a r kind args s log).trans ?_
    split <;> simp [q, *]

end FieldDef

end EntityGraph
