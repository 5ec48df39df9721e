import EntityGraph.Proofs.Compile.Registry
import Mathlib.Data.Finset.Card
import Mathlib.Data.List.Induction

/-!
The registry of generated types under any operations. Names may be reserved and types finished in
any order, also types of names that were never reserved, and one name as both kinds. What the
registry knows is told by the operations that were made: for what a name was reserved first, whether
its type has been finished since then, and which names have been finished.
-/

namespace EntityGraph

/-- Pairs leave one field for each of their keys. -/
theorem Fields.length_ofList {α : Type} (gs : List (String × α)) :
    (Fields.ofList gs).length = (gs.map Prod.fst).toFinset.card := by
  have hkeys : (Fields.keys (Fields.ofList gs)).toFinset = (gs.map Prod.fst).toFinset := by
    ext key
    rw [List.mem_toFinset, List.mem_toFinset, Fields.ofList, Fields.mem_keys_insertAll]
    exact or_iff_right List.not_mem_nil
  calc (Fields.ofList gs).length
      = (Fields.keys (Fields.ofList gs)).length := (List.length_map _).symm
    _ = (Fields.keys (Fields.ofList gs)).toFinset.card :=
      (List.toFinset_card_of_nodup (Fields.ofList_distinct gs)).symm
    _ = (gs.map Prod.fst).toFinset.card := by rw [hkeys]

/-! ### Operations -/

/-- An operation on a registry. -/
inductive RegistryStep where
  | reserve (name fingerprint : String)
  | finishObject (name : String) (o : ObjectType)
  | finishInput (name : String) (i : InputType)

namespace RegistryStep

/-- The fingerprint that a name is reserved for. -/
def fingerprint? (name : String) : RegistryStep → Option String
  | .reserve n f => if n = name then some f else none
  | .finishObject .. | .finishInput .. => none

/-- The object that is finished, under its name. -/
def object? : RegistryStep → Option (String × ObjectType)
  | .finishObject n o => some (n, o)
  | .reserve .. | .finishInput .. => none

/-- The input that is finished, under its name. -/
def input? : RegistryStep → Option (String × InputType)
  | .finishInput n i => some (n, i)
  | .reserve .. | .finishObject .. => none

/-- A type of the name is finished, of either kind. -/
def Finishes (name : String) : RegistryStep → Prop
  | .reserve .. => False
  | .finishObject n _ | .finishInput n _ => n = name

/-- The fingerprint that a name is reserved for at first. -/
def first? (steps : List RegistryStep) (name : String) : Option String :=
  steps.findSome? (fingerprint? name)

/-- **A name is under construction after steps**: no type of the name has been finished since it
was first reserved. -/
def Unfinished (steps : List RegistryStep) (name : String) : Prop :=
  ∃ before f after, steps = before ++ .reserve name f :: after ∧ first? before name = none ∧
    ∀ s ∈ after, ¬ s.Finishes name

variable {steps : List RegistryStep} {s : RegistryStep} {name : String}

theorem fingerprint?_eq_some_iff {f : String} :
    s.fingerprint? name = some f ↔ s = .reserve name f := by
  cases s <;> simp [fingerprint?]

theorem first?_eq_none_iff : first? steps name = none ↔ ∀ f, .reserve name f ∉ steps := by
  rw [first?, List.findSome?_eq_none_iff]
  constructor
  · intro h f hf
    exact absurd (h _ hf) (by simp [fingerprint?])
  · intro h s hs
    cases hf : s.fingerprint? name with
    | none => rfl
    | some f => exact absurd (fingerprint?_eq_some_iff.1 hf ▸ hs) (h f)

theorem first?_concat (steps : List RegistryStep) (s : RegistryStep) (name : String) :
    first? (steps ++ [s]) name = (first? steps name).or (s.fingerprint? name) := by
  simp [first?]

theorem not_unfinished_nil : ¬ Unfinished [] name := by
  rintro ⟨before, f, after, heq, -⟩
  simp at heq

theorem unfinished_concat_iff :
    Unfinished (steps ++ [s]) name ↔
      Unfinished steps name ∧ ¬ s.Finishes name ∨
        first? steps name = none ∧ ∃ f, s = .reserve name f := by
  constructor
  · rintro ⟨before, f, after, heq, hfirst, hafter⟩
    rcases List.eq_nil_or_concat after with rfl | ⟨after, t, rfl⟩
    · obtain ⟨rfl, hs⟩ := List.append_inj' heq rfl
      exact .inr ⟨hfirst, f, List.singleton_inj.1 hs⟩
    · rw [List.concat_eq_append] at heq hafter
      have hsplit : steps ++ [s] = (before ++ .reserve name f :: after) ++ [t] := by simpa using heq
      obtain ⟨rfl, hs⟩ := List.append_inj' hsplit rfl
      obtain rfl := List.singleton_inj.1 hs
      obtain ⟨hafter, hlast⟩ := List.forall_mem_append.1 hafter
      exact .inl ⟨⟨before, f, after, rfl, hfirst, hafter⟩, hlast _ (List.mem_singleton_self _)⟩
  · rintro (⟨⟨before, f, after, rfl, hfirst, hafter⟩, hs⟩ | ⟨hfirst, f, rfl⟩)
    · refine ⟨before, f, after ++ [s], by simp, hfirst, ?_⟩
      exact List.forall_mem_append.2 ⟨hafter, List.forall_mem_singleton.2 hs⟩
    · exact ⟨steps, f, [], rfl, hfirst, List.forall_mem_nil _⟩

end RegistryStep

open RegistryStep

namespace TypeRegistry

/-- The registry after a step. -/
def perform (r : TypeRegistry) : RegistryStep → TypeRegistry
  | .reserve n f => (r.reserve n f).2
  | .finishObject n o => r.finishObject n o
  | .finishInput n i => r.finishInput n i

/-- The registry after steps from the one without names. -/
def after (steps : List RegistryStep) : TypeRegistry := steps.foldl perform .empty

theorem after_concat (steps : List RegistryStep) (s : RegistryStep) :
    after (steps ++ [s]) = (after steps).perform s := by
  simp [after]

/-! ### One operation -/

variable {r : TypeRegistry} {s : RegistryStep} {steps : List RegistryStep} {name f : String}

/-- **Everything that a reservation can do.** -/
theorem reserve_cases (r : TypeRegistry) (name f : String) :
    Fields.get? r.fingerprints name = none ∧ r.reserve name f = (.ok .build, r.enter name f) ∨
    Fields.get? r.fingerprints name = some f ∧ r.reserve name f = (.ok .existing, r) ∨
    ∃ g, Fields.get? r.fingerprints name = some g ∧ g ≠ f ∧
      r.reserve name f = (.error (.conflict name), r) := by
  unfold reserve
  cases hget : Fields.get? r.fingerprints name with
  | none => exact .inl ⟨rfl, rfl⟩
  | some g =>
    by_cases hg : g = f
    · exact .inr (.inl ⟨by rw [hg], by simp [hg]⟩)
    · exact .inr (.inr ⟨g, rfl, hg, by simp [hg]⟩)

theorem reserve_eq_build_iff (r : TypeRegistry) (name f : String) :
    (r.reserve name f).1 = .ok .build ↔ Fields.get? r.fingerprints name = none := by
  rcases r.reserve_cases name f with ⟨h, hr⟩ | ⟨h, hr⟩ | ⟨g, h, -, hr⟩ <;> simp [hr, h]

theorem reserve_eq_existing_iff (r : TypeRegistry) (name f : String) :
    (r.reserve name f).1 = .ok .existing ↔ Fields.get? r.fingerprints name = some f := by
  rcases r.reserve_cases name f with ⟨h, hr⟩ | ⟨h, hr⟩ | ⟨g, h, hg, hr⟩
  · simp [hr, h]
  · simp [hr, h]
  · simp [hr, h, hg]

theorem reserve_eq_conflict_iff (r : TypeRegistry) (name f : String) :
    (r.reserve name f).1 = .error (.conflict name) ↔
      ∃ g, Fields.get? r.fingerprints name = some g ∧ g ≠ f := by
  rcases r.reserve_cases name f with ⟨h, hr⟩ | ⟨h, hr⟩ | ⟨g, h, hg, hr⟩
  · simp [hr, h]
  · simp [hr, h]
  · simp [hr, h, hg]

/-- Only a name that is to be built changes the registry. -/
theorem reserve_eq_self {r : TypeRegistry} (h : (r.reserve name f).1 ≠ .ok .build) :
    (r.reserve name f).2 = r := by
  rcases r.reserve_cases name f with ⟨-, hr⟩ | ⟨-, hr⟩ | ⟨g, -, -, hr⟩
  · exact absurd (by rw [hr]) h
  · rw [hr]
  · rw [hr]

theorem get?_perform (r : TypeRegistry) (s : RegistryStep) (name : String) :
    Fields.get? (r.perform s).fingerprints name =
      (Fields.get? r.fingerprints name).or (s.fingerprint? name) := by
  cases s with
  | reserve n f =>
    rw [perform, fingerprint?]
    rcases r.reserve_cases n f with ⟨hnone, h⟩ | ⟨hsame, h⟩ | ⟨g, hother, -, h⟩ <;> rw [h]
    · rw [get?_enter]
      by_cases hn : n = name
      · rw [if_pos hn, if_pos hn, ← hn, hnone, Option.none_or]
      · rw [if_neg hn, if_neg hn, Option.or_none]
    · by_cases hn : n = name
      · rw [← hn, hsame, Option.some_or]
      · rw [if_neg hn, Option.or_none]
    · by_cases hn : n = name
      · rw [← hn, hother, Option.some_or]
      · rw [if_neg hn, Option.or_none]
  | finishObject | finishInput => exact Option.or_none.symm

theorem mem_others_iff {n : String} : name ∈ r.others n ↔ name ∈ r.generating ∧ n ≠ name := by
  rw [others, List.mem_filter, decide_eq_true_eq, ne_comm]

theorem mem_generating_perform_iff :
    name ∈ (r.perform s).generating ↔
      name ∈ r.generating ∧ ¬ s.Finishes name ∨
        Fields.get? r.fingerprints name = none ∧ ∃ f, s = .reserve name f := by
  cases s with
  | reserve n f =>
    have hfirst : (Fields.get? r.fingerprints name = none ∧
        ∃ f', RegistryStep.reserve n f = .reserve name f') ↔
          n = name ∧ Fields.get? r.fingerprints n = none := by
      constructor
      · rintro ⟨hnone, f', hs⟩
        obtain ⟨rfl, -⟩ := RegistryStep.reserve.inj hs
        exact ⟨rfl, hnone⟩
      · rintro ⟨rfl, hnone⟩
        exact ⟨hnone, f, rfl⟩
    rw [perform, hfirst]
    rcases r.reserve_cases n f with ⟨hnone, h⟩ | ⟨hsame, h⟩ | ⟨g, hother, -, h⟩ <;> rw [h]
    · simp [enter, Finishes, hnone, eq_comm, or_comm]
    · simp [Finishes, hsame]
    · simp [Finishes, hother]
  | finishObject n o =>
    rw [perform, finishObject, mem_others_iff]
    simp [Finishes]
  | finishInput n i =>
    rw [perform, finishInput, mem_others_iff]
    simp [Finishes]

/-- A reservation leaves the finished types alone. -/
theorem finished_reserve (r : TypeRegistry) (name f : String) :
    (r.reserve name f).2.objects = r.objects ∧ (r.reserve name f).2.inputs = r.inputs := by
  rcases r.reserve_cases name f with ⟨-, h⟩ | ⟨-, h⟩ | ⟨g, -, -, h⟩ <;> rw [h] <;> exact ⟨rfl, rfl⟩

theorem objects_perform (r : TypeRegistry) (s : RegistryStep) :
    (r.perform s).objects = Fields.insertAll r.objects s.object?.toList := by
  cases s with
  | reserve n f => exact (finished_reserve r n f).1
  | finishObject | finishInput => rfl

theorem inputs_perform (r : TypeRegistry) (s : RegistryStep) :
    (r.perform s).inputs = Fields.insertAll r.inputs s.input?.toList := by
  cases s with
  | reserve n f => exact (finished_reserve r n f).2
  | finishObject | finishInput => rfl

/-! ### All operations -/

/-- A name is reserved for what it was reserved for first. -/
theorem get?_after (steps : List RegistryStep) (name : String) :
    Fields.get? (after steps).fingerprints name = first? steps name := by
  induction steps using List.reverseRecOn with
  | nil => rfl
  | append_singleton steps s ih => rw [after_concat, get?_perform, ih, first?_concat]

theorem mem_generating_after_iff : name ∈ (after steps).generating ↔ Unfinished steps name := by
  induction steps using List.reverseRecOn with
  | nil => exact iff_of_false List.not_mem_nil not_unfinished_nil
  | append_singleton steps s ih =>
    rw [after_concat, mem_generating_perform_iff, ih, get?_after, unfinished_concat_iff]

/-- What every step writes some pairs into is made of all pairs. -/
theorem view_after {α : Type} {view : TypeRegistry → Fields α}
    {written? : RegistryStep → Option (String × α)} (hempty : view .empty = [])
    (hstep : ∀ r s, view (r.perform s) = Fields.insertAll (view r) (written? s).toList)
    (steps : List RegistryStep) :
    view (after steps) = Fields.ofList (steps.filterMap written?) := by
  induction steps using List.reverseRecOn with
  | nil => exact hempty
  | append_singleton steps s ih =>
    rw [after_concat, hstep, ih, List.filterMap_append, Fields.ofList_append]
    cases h : written? s <;> simp [h]

theorem contains_after_iff :
    (after steps).contains name = true ↔ ∃ f, RegistryStep.reserve name f ∈ steps := by
  rw [← not_iff_not, Bool.not_eq_true, contains, Fields.contains, get?_after,
    Option.isSome_eq_false_iff, Option.isNone_iff_eq_none, first?_eq_none_iff, not_exists]

/-- **What a registry knows is told by the operations made on it**, in any order and for any names.
A name is to be built exactly where it is reserved for the first time; afterwards it is there for
whoever asks with the first fingerprint, it is a conflict for everyone else, and neither changes
anything. A name that has been reserved stays so. It is under construction where no type of the name
has been finished since the first reservation, and the types counted are the names finished as one
kind. -/
theorem registry_follows_steps (steps : List RegistryStep) (name : String) :
    (∀ f, ((after steps).reserve name f).1 = .ok .build ↔
      ∀ g, RegistryStep.reserve name g ∉ steps) ∧
    (∀ f, ((after steps).reserve name f).1 = .ok .existing ↔ first? steps name = some f) ∧
    (∀ f, ((after steps).reserve name f).1 = .error (.conflict name) ↔
      ∃ g, first? steps name = some g ∧ g ≠ f) ∧
    (∀ f, ((after steps).reserve name f).1 ≠ .ok .build →
      ((after steps).reserve name f).2 = after steps) ∧
    (∀ later, (after steps).contains name = true → (after (steps ++ later)).contains name = true) ∧
    ((after steps).isGenerating name = true ↔ Unfinished steps name) ∧
    (after steps).objectCount = ((steps.filterMap object?).map Prod.fst).toFinset.card ∧
    (after steps).inputCount = ((steps.filterMap input?).map Prod.fst).toFinset.card := by
  refine ⟨fun f => ?_, fun f => ?_, fun f => ?_, fun f => reserve_eq_self, fun later h => ?_, ?_,
    ?_, ?_⟩
  · rw [reserve_eq_build_iff, get?_after, first?_eq_none_iff]
  · rw [reserve_eq_existing_iff, get?_after]
  · rw [reserve_eq_conflict_iff, get?_after]
  · obtain ⟨f, hf⟩ := contains_after_iff.1 h
    exact contains_after_iff.2 ⟨f, List.mem_append_left _ hf⟩
  · rw [isGenerating, List.contains_iff_mem]
    exact mem_generating_after_iff
  · rw [objectCount, view_after rfl objects_perform, Fields.length_ofList]
  · rw [inputCount, view_after rfl inputs_perform, Fields.length_ofList]

/-- A type that is finished before its name is reserved, and twice after it, first as an object and
then as an input. It counts once as each kind, and its name is kept for the first reservation. -/
theorem registry_follows_steps_tag :
    let o : ObjectType := ⟨"tag", none, []⟩
    let steps := [RegistryStep.finishObject "tag" o, .reserve "tag" "a", .finishObject "tag" o,
      .reserve "tag" "b", .finishInput "tag" ⟨"tag", none, []⟩]
    (after (steps.take 2)).isGenerating "tag" = true ∧
      (after steps).isGenerating "tag" = false ∧
      ((after steps).reserve "tag" "b").1 = .error (.conflict "tag") ∧
      ((after steps).reserve "tag" "b").2 = after steps ∧
      (after (steps ++ steps)).contains "tag" = true ∧
      (after steps).objectCount = 1 ∧ (after steps).inputCount = 1 := by
  intro o steps
  obtain ⟨-, -, hconflict, hsame, hstays, -, hobjects, hinputs⟩ :=
    registry_follows_steps steps "tag"
  obtain ⟨-, -, -, -, -, hearlier, -, -⟩ := registry_follows_steps (steps.take 2) "tag"
  have hrefused : ((after steps).reserve "tag" "b").1 = .error (.conflict "tag") :=
    (hconflict "b").2 ⟨"a", rfl, by decide⟩
  have hopen : Unfinished (steps.take 2) "tag" :=
    ⟨[.finishObject "tag" o], "a", [], rfl, rfl, List.forall_mem_nil _⟩
  exact ⟨hearlier.2 hopen, by decide, hrefused, hsame "b" (by rw [hrefused]; simp),
    hstays steps (by decide), hobjects.trans (by decide), hinputs.trans (by decide)⟩

end TypeRegistry

end EntityGraph
