import EntityGraph.Proofs.Compile.Spelling
import EntityGraph.Proofs.Compile.Timeline

/-!
Names that are requested more than once. Wherever in a session two requests for a name are made,
the later one builds nothing. It is referred to the type of the earlier one if both ask for the
same, and is refused otherwise. A request that is refused leaves no trace, so when it is made again
it is refused again.
-/

namespace EntityGraph

open Compile

/-- A call is refused since its name is taken for something else. -/
def CompileContext.Refused (x : CompileContext) (p : Demand × TypeRegistry) (name : String) :
    Prop :=
  x.answer p.1 p.2 = (.error (.refused (.conflict name)), p.2)

section Repeated

variable {x : CompileContext} {q : Demand} {b : Blueprint} {p : Demand × TypeRegistry}
  {s : TypeRegistry}

/-- The alias of an entity whose type has a valid name is free of colons. -/
theorem Blueprint.Admissible.plainAlias (hadm : b.Admissible) (hb : q.blueprint? x = some b) :
    b.signature.PlainAlias := by
  cases Demand.builds_of_blueprint hb with
  | entity u e =>
    have hvalid : Name.Valid (u.typeName e.aliasName) = true := hadm.valid (by simp)
    have hrest := Name.all_isRest_of_valid hvalid
    intro a ha hcolon
    obtain rfl : e.aliasName = a := by
      cases u <;> exact Option.some.inj ha
    have hmem : ':' ∈ (u.typeName e.aliasName).toList := by
      cases u <;> simp [TypeUse.typeName, OutputOptions.typeName, inputTypeName, hcolon]
    exact absurd (List.all_eq_true.1 hrest _ hmem) (by decide)
  | shape u name fs => cases u <;> exact fun a ha => by cases ha
  | filter | sort => exact fun a ha => by cases ha

/-- A call for a name in use makes no calls. -/
theorem directCalls_of_contains (hb : p.1.blueprint? x = some b)
    (h : p.2.contains b.name = true) : x.directCalls p = [] := by
  obtain ⟨q, r⟩ := p
  cases Demand.builds_of_blueprint hb with
  | entity | shape =>
    rw [CompileContext.directCalls, CompileContext.typeCalls, if_neg]
    exact fun hfree => absurd (h.symm.trans hfree.2) (by decide)
  | filter | sort => rfl

/-- Once a call has passed its reservation, its name is reserved: for its own signature, unless
the call is refused. -/
theorem CompileContext.Passed.reserved_or_refused (h : x.Passed p s)
    (hp : Consistent x (fun _ => True) p.2) (hb : p.1.blueprint? x = some b)
    (hadm : b.Admissible) :
    s.Reserved b.name b.signature ∧ ¬ x.Refused p b.name ∨
      x.Refused p b.name ∧ ∃ t, t ≠ b.signature ∧ s.Reserved b.name t := by
  by_cases htaken : ∃ t, p.2.Reserved b.name t ∧ t ≠ b.signature
  · obtain ⟨t, ht, hne⟩ := htaken
    exact .inr ⟨Demand.answer_of_conflict hb hadm ht hne, t, hne, h.within _ _ ht⟩
  · have hown (t : Signature) (ht : p.2.Reserved b.name t) : t = b.signature :=
      by_contra fun hne => htaken ⟨t, ht, hne⟩
    refine .inl ⟨h.reserved b hb hadm hown, fun hrefused => ?_⟩
    cases hcontains : p.2.contains b.name with
    | false =>
      -- a free name is reserved by the call
      have hfree := (Demand.answer_of_free hb hadm hp hcontains).1
      rw [show x.answer p.1 p.2 = _ from hrefused] at hfree
      exact absurd (hfree.contains.symm.trans hcontains) (by decide)
    | true =>
      obtain ⟨t, ht⟩ := hp.exists_reserved hcontains
      obtain rfl := hown t ht
      have hok := Demand.answer_of_reserved hb hadm ht
      exact absurd (hok.symm.trans hrefused) (by simp)

end Repeated

/-- **A later request for a name is referred to the earlier one exactly if it asks for the same.**
The requests of a session are those of its demands and all that are made for them in turn, in the
order they are made. Take two of them for types of one name that pass the checks. The later one
makes no calls and leaves the registry as it is, so that nothing is built under the name any more.
If the earlier one was not itself refused, the later one is answered where both have one signature,
and is a conflict otherwise; and if the earlier one was refused, the same is refused again. Texts
that spell the two signatures out tell them apart. -/
theorem later_request_answered_iff_same (x : CompileContext) (qs : List Demand) :
    (∀ p, p ∈ x.timeline qs .empty ↔ ∃ before q after, qs = before ++ q :: after ∧
      Relation.ReflTransGen (Invokes x) (q, (x.session before .empty).2) p) ∧
    (x.timeline qs .empty).Pairwise fun p p' => ∀ b b', p.1.blueprint? x = some b →
      p'.1.blueprint? x = some b' → b.Admissible → b'.Admissible → b.name = b'.name →
      (x.directCalls p' = [] ∧ (x.answer p'.1 p'.2).2 = p'.2) ∧
      (¬ x.Refused p b.name → b.signature = b'.signature →
        x.answer p'.1 p'.2 = (.ok p'.1.ref, p'.2)) ∧
      (¬ x.Refused p b.name → b.signature ≠ b'.signature → x.Refused p' b'.name) ∧
      (x.Refused p b.name → b.signature = b'.signature → x.Refused p' b'.name) ∧
      (b.signature.spelling = b'.signature.spelling ↔ b.signature = b'.signature) := by
  refine ⟨fun p => CompileContext.mem_timeline_iff, ?_⟩
  have horder := timeline_chronological (x := x) qs .empty
  refine horder.ordered.imp_of_mem fun {p p'} hp _ hpassed b b' hb hb' hadm hadm' hname => ?_
  have hsame : p'.2.Reserved b'.name b'.signature →
      x.answer p'.1 p'.2 = (.ok p'.1.ref, p'.2) := Demand.answer_of_reserved hb' hadm'
  have hother {t : Signature} (ht : p'.2.Reserved b'.name t) (hne : t ≠ b'.signature) :
      x.Refused p' b'.name := Demand.answer_of_conflict hb' hadm' ht hne
  have hspelling : b.signature.spelling = b'.signature.spelling ↔ b.signature = b'.signature :=
    (Signature.spelling_eq_iff (hadm.plainAlias hb) (hadm'.plainAlias hb')).trans
      ⟨fun h => Signature.fingerprint_injective h, fun h => h ▸ rfl⟩
  have hleft := hpassed.reserved_or_refused (horder.consistent p hp) hb hadm
  rw [hname] at hleft ⊢
  have hbuilt {t : Signature} (ht : p'.2.Reserved b'.name t) :
      x.directCalls p' = [] ∧ (x.answer p'.1 p'.2).2 = p'.2 := by
    refine ⟨directCalls_of_contains hb' ht.contains, ?_⟩
    by_cases hne : t = b'.signature
    · rw [hsame (hne ▸ ht)]
    · rw [show x.answer p'.1 p'.2 = _ from hother ht hne]
  rcases hleft with ⟨ht, hgranted⟩ | ⟨hrefused, t, hne, ht⟩
  · exact ⟨hbuilt ht, fun _ heq => hsame (heq ▸ ht), fun _ hne => hother ht hne,
      fun hrefused => absurd hrefused hgranted, hspelling⟩
  · exact ⟨hbuilt ht, fun hgranted => absurd hrefused hgranted,
      fun hgranted => absurd hrefused hgranted, fun _ heq => hother ht (heq ▸ hne), hspelling⟩

/-- The shape of the public type of a part has the name of its persisted type. The persisted type is
refused, and the public type is there when it is requested again. -/
theorem later_request_answered_iff_same_part :
    let x : CompileContext := ⟨⟨[partEntity]⟩, .empty⟩
    let published := Demand.entity (.output .publicType) partEntity
    let persisted := Demand.entity (.output .entityType) partEntity
    let r := (x.session [published] .empty).2
    x.Refused (persisted, r) "partEntity" ∧
      x.answer published (x.answer persisted r).2 = (.ok (.named "part"), r) := by
  intro x published persisted r
  obtain ⟨-, horder⟩ := later_request_answered_iff_same x [published, persisted, published]
  obtain ⟨hfirst, -⟩ := List.pairwise_cons.1 (List.pairwise_flatMap.1 horder).2
  have hself (c : Demand × TypeRegistry) : c ∈ x.calls c := CompileContext.mem_calls_iff.2 .refl
  -- the shape is requested while the public type is built, before the persisted type
  have hshape := CompileContext.mem_calls_iff.2 (.single (@Invokes.field x (.output .publicType)
    partEntity [] _ _ _ _ .empty _ (by decide +kernel) rfl rfl (by decide) rfl (by decide)))
  have hrefused : x.Refused (persisted, r) "partEntity" := by
    obtain ⟨-, -, hdifferent, -⟩ := hfirst _ List.mem_cons_self _ hshape _ (hself _) _ _ rfl rfl
      (.shape (by decide +kernel) (List.cons_ne_nil _ _)) (.entity x (by decide +kernel)) rfl
    refine hdifferent (fun hrefused => ?_) (fun hsame => by cases hsame)
    exact absurd (congrArg Prod.fst hrefused) (by decide +kernel)
  have hpublished : (x.entityBlueprint (.output .publicType) partEntity).Admissible :=
    .entity x (by decide +kernel)
  obtain ⟨-, hsame, -⟩ := hfirst _ (List.mem_cons_of_mem _ List.mem_cons_self) _ (hself _) _
    (hself _) _ _ rfl rfl hpublished hpublished rfl
  have hagain : x.answer published (x.answer persisted r).2 =
      (.ok (.named "part"), (x.answer persisted r).2) :=
    hsame (fun h => absurd (congrArg Prod.fst h) (by decide +kernel)) rfl
  have hunchanged : (x.answer persisted r).2 = r := by
    rw [show x.answer persisted r = _ from hrefused]
  rw [hunchanged] at hagain ⊢
  exact ⟨hrefused, hagain⟩

/-- **The same request is not always answered**: one that is refused is refused again. -/
theorem exists_same_request_refused :
    ¬ ∀ (x : CompileContext) (qs : List Demand),
      (x.timeline qs .empty).Pairwise fun p p' => ∀ b b', p.1.blueprint? x = some b →
        p'.1.blueprint? x = some b' → b.Admissible → b'.Admissible → b.name = b'.name →
        (x.answer p'.1 p'.2 = (.ok p'.1.ref, p'.2) ↔ b.signature = b'.signature) := by
  intro hclaim
  let x : CompileContext := ⟨⟨[partEntity]⟩, .empty⟩
  let published := Demand.entity (.output .publicType) partEntity
  let persisted := Demand.entity (.output .entityType) partEntity
  have hcalls := (hclaim x [published, persisted, persisted]).sublist
    (CompileContext.sessionCalls_sublist _ _)
  -- the second demand is refused, and the third one is the same
  have hpair := (List.pairwise_cons.1 (List.pairwise_cons.1 hcalls).2).1 _ List.mem_cons_self
  have hadm : (x.entityBlueprint (.output .entityType) partEntity).Admissible :=
    .entity x (by decide +kernel)
  have hanswer := (hpair _ _ rfl rfl hadm hadm rfl).2 rfl
  have hrefused : (x.answer persisted (x.session [published, persisted] .empty).2).1 =
      .error (.refused (.conflict "partEntity")) := by decide +kernel
  exact absurd (hrefused.symm.trans (congrArg Prod.fst hanswer)) (by simp)

end EntityGraph
