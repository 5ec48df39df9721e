import EntityGraph.Catalog.Toml
import EntityGraph.Proofs.Traversal
import Mathlib.Data.List.Nodup

/-!
References of a catalog. The references of a type are the ones among its nodes in preorder. A
catalog is built in one piece where no alias is repeated and every reference names one of the
aliases; otherwise the first alias that is repeated decides, and after the aliases the first
reference that names none of them.
-/

namespace EntityGraph

/-! ### The nodes of a type -/

namespace PropertyType

mutual

/-- A type and all types inside it: a type before its items and fields, and fields in order. -/
def preorder : PropertyType → List PropertyType
  | .scalar k => [.scalar k]
  | .shape fs => .shape fs :: fieldsPreorder fs
  | .array t => .array t :: preorder t
  | .reference a => [.reference a]

def fieldsPreorder : List (String × PropertyType) → List PropertyType
  | [] => []
  | (_, t) :: fs => preorder t ++ fieldsPreorder fs

end

/-- The alias that a reference names. -/
def target? : PropertyType → Option String
  | .reference a => some a
  | _ => none

@[simp] theorem target?_eq_some_iff {t : PropertyType} {a : String} :
    t.target? = some a ↔ t = .reference a := by
  cases t <;> simp [target?]

mutual

theorem references_eq_preorder : ∀ t : PropertyType, t.references = t.preorder.filterMap target?
  | .scalar _ => rfl
  | .shape fs => fieldReferences_eq_preorder fs
  | .array t => references_eq_preorder t
  | .reference _ => rfl

theorem fieldReferences_eq_preorder : ∀ fs : List (String × PropertyType),
    fieldReferences fs = (fieldsPreorder fs).filterMap target?
  | [] => rfl
  | (_, t) :: fs => by
    rw [fieldReferences, fieldsPreorder, List.filterMap_append, ← references_eq_preorder t,
      ← fieldReferences_eq_preorder fs]

end

theorem mem_fieldsPreorder {fs : List (String × PropertyType)} {f : String × PropertyType}
    {t : PropertyType} (hf : f ∈ fs) (ht : t ∈ f.2.preorder) :
    t ∈ fieldsPreorder fs := by
  induction fs with
  | nil => cases hf
  | cons g fs ih =>
    rw [fieldsPreorder, List.mem_append]
    rcases List.mem_cons.1 hf with rfl | hf
    · exact .inl ht
    · exact .inr (ih hf)

theorem mem_fieldReferences {fs : List (String × PropertyType)} {f : String × PropertyType}
    {a : String} (hf : f ∈ fs) (ha : a ∈ f.2.references) : a ∈ fieldReferences fs := by
  rw [references_eq_preorder] at ha
  obtain ⟨t, ht, hta⟩ := List.mem_filterMap.1 ha
  rw [fieldReferences_eq_preorder]
  exact List.mem_filterMap.2 ⟨t, mem_fieldsPreorder hf ht, hta⟩

end PropertyType

/-! ### Catalogs built in one piece -/

namespace Catalog

variable {c d : Catalog} {es : List Entity} {err : DefinitionError}

theorem add_eq_ok_iff {e : Entity} :
    c.add e = .ok d ↔ e.aliasName ∉ c.aliases ∧ d = ⟨c.entities ++ [e]⟩ := by
  unfold add
  by_cases he : c.contains e.aliasName = true
  · simp [he, contains_iff.1 he]
  · rw [if_neg he, Except.ok.injEq, ← contains_iff, eq_comm]
    exact (and_iff_right he).symm

theorem add_eq_error_iff {e : Entity} :
    c.add e = .error err ↔ e.aliasName ∈ c.aliases ∧ err = .duplicateAlias e.aliasName := by
  unfold add
  by_cases he : c.contains e.aliasName = true
  · rw [if_pos he, Except.error.injEq, ← contains_iff, eq_comm]
    exact (and_iff_right he).symm
  · simpa [he] using fun hmem => absurd (contains_iff.2 hmem) he

theorem aliases_add {e : Entity} (h : c.add e = .ok d) :
    d.aliases = c.aliases ++ [e.aliasName] := by
  obtain ⟨-, rfl⟩ := add_eq_ok_iff.1 h
  simp [aliases]

theorem nodup_add {e : Entity} (hc : c.aliases.Nodup) (h : c.add e = .ok d) : d.aliases.Nodup := by
  rw [aliases_add h]
  exact List.nodup_append_comm.1 (List.nodup_cons.2 ⟨(add_eq_ok_iff.1 h).1, hc⟩)

theorem addAll_cons {e : Entity} : c.addAll (e :: es) = (c.add e >>= fun c => c.addAll es) := rfl

/-- Entities are added where no alias is repeated, neither among them nor with the ones before. -/
theorem addAll_eq_ok_iff (hc : c.aliases.Nodup) :
    c.addAll es = .ok d ↔
      (c.aliases ++ es.map Entity.aliasName).Nodup ∧ d = ⟨c.entities ++ es⟩ := by
  -- the catalog grows on the way; that it has every alias once is what one addition keeps
  induction es generalizing c with
  | nil => simp [addAll, hc, eq_comm]
  | cons e es ih =>
    rw [addAll_cons, exceptBind_eq_ok_iff]
    constructor
    · rintro ⟨c', hadd, hrest⟩
      obtain ⟨hnodup, rfl⟩ := (ih (nodup_add hc hadd)).1 hrest
      rw [aliases_add hadd] at hnodup
      obtain ⟨-, rfl⟩ := add_eq_ok_iff.1 hadd
      exact ⟨by simpa using hnodup, by simp⟩
    · rintro ⟨hnodup, rfl⟩
      have hnew : e.aliasName ∉ c.aliases := fun hmem =>
        List.disjoint_of_nodup_append hnodup hmem List.mem_cons_self
      have hadd := add_eq_ok_iff.2 ⟨hnew, rfl⟩
      refine ⟨_, hadd, (ih (nodup_add hc hadd)).2 ⟨?_, by simp⟩⟩
      rw [aliases_add hadd]
      simpa using hnodup

theorem addAll_empty_eq_ok_iff :
    empty.addAll es = .ok c ↔ (es.map Entity.aliasName).Nodup ∧ c = ⟨es⟩ := by
  rw [addAll_eq_ok_iff (c := empty) List.nodup_nil]
  simp [empty, aliases]

/-- Adding entities stops at the first alias that is there already. -/
theorem addAll_eq_error_iff (hc : c.aliases.Nodup) :
    c.addAll es = .error err ↔
      ∃ before a after, es.map Entity.aliasName = before ++ a :: after ∧
        (c.aliases ++ before).Nodup ∧ a ∈ c.aliases ++ before ∧ err = .duplicateAlias a := by
  induction es generalizing c with
  | nil => simp [addAll]
  | cons e es ih =>
    rw [addAll_cons, exceptBind_eq_error_iff, add_eq_error_iff]
    constructor
    · rintro (⟨hmem, rfl⟩ | ⟨c', hadd, hrest⟩)
      · exact ⟨[], e.aliasName, _, rfl, by simpa using hc, by simpa using hmem, rfl⟩
      · obtain ⟨before, a, after, hsplit, hnodup, ha, rfl⟩ := (ih (nodup_add hc hadd)).1 hrest
        rw [aliases_add hadd] at hnodup ha
        exact ⟨e.aliasName :: before, a, after, by simp [hsplit], by simpa using hnodup,
          by simpa using ha, rfl⟩
    · rintro ⟨before, a, after, hsplit, hnodup, ha, rfl⟩
      cases before with
      | nil =>
        obtain ⟨rfl, -⟩ := List.cons.inj hsplit
        exact .inl ⟨by simpa using ha, rfl⟩
      | cons b before =>
        obtain ⟨rfl, hrest⟩ := List.cons.inj hsplit
        have hnew : e.aliasName ∉ c.aliases := fun hmem =>
          List.disjoint_of_nodup_append hnodup hmem List.mem_cons_self
        have hadd := add_eq_ok_iff.2 ⟨hnew, rfl⟩
        refine .inr ⟨_, hadd, (ih (nodup_add hc hadd)).2 ⟨before, a, after, hrest, ?_, ?_, rfl⟩⟩
        · rw [aliases_add hadd]
          simpa using hnodup
        · rw [aliases_add hadd]
          simpa using ha

theorem danglingReference?_eq_none_iff :
    c.danglingReference? = none ↔ ∀ r ∈ c.references, r.2.2 ∈ c.aliases := by
  simp [danglingReference?, ← contains_iff]

theorem danglingReference?_eq_some_iff {r : String × String × String} :
    c.danglingReference? = some r ↔
      ∃ before after, c.references = before ++ r :: after ∧
        (∀ q ∈ before, q.2.2 ∈ c.aliases) ∧ r.2.2 ∉ c.aliases := by
  simp only [danglingReference?, List.find?_eq_some_iff_append, ← contains_iff, Bool.not_eq_true',
    Bool.not_not, Bool.not_eq_true]
  constructor
  · rintro ⟨hdangling, before, after, hsplit, hbefore⟩
    exact ⟨before, after, hsplit, hbefore, hdangling⟩
  · rintro ⟨before, after, hsplit, hbefore, hdangling⟩
    exact ⟨hdangling, before, after, hsplit, hbefore⟩

theorem validateReferences_eq_ok_iff {u : Unit} :
    c.validateReferences = .ok u ↔ ∀ r ∈ c.references, r.2.2 ∈ c.aliases := by
  rw [← danglingReference?_eq_none_iff, validateReferences]
  cases c.danglingReference? <;> simp

/-- The references are judged in order, and the first that names no alias decides. -/
theorem validateReferences_eq_error_iff :
    c.validateReferences = .error err ↔
      ∃ before entity property target after,
        c.references = before ++ (entity, property, target) :: after ∧
          (∀ r ∈ before, r.2.2 ∈ c.aliases) ∧ target ∉ c.aliases ∧
            err = .unknownReference entity property target := by
  have hfirst : c.validateReferences = .error err ↔
      ∃ r, c.danglingReference? = some r ∧ err = .unknownReference r.1 r.2.1 r.2.2 := by
    unfold validateReferences
    cases c.danglingReference? with
    | none => simp
    | some r => simp [@eq_comm _ err]
  rw [hfirst]
  simp only [danglingReference?_eq_some_iff]
  constructor
  · rintro ⟨⟨entity, property, target⟩, ⟨before, after, hsplit, hbefore, hdangling⟩, rfl⟩
    exact ⟨before, entity, property, target, after, hsplit, hbefore, hdangling, rfl⟩
  · rintro ⟨before, entity, property, target, after, hsplit, hbefore, hdangling, rfl⟩
    exact ⟨_, ⟨before, after, hsplit, hbefore, hdangling⟩, rfl⟩

/-- A catalog is built of entities with distinct aliases whose references name them. -/
theorem ofEntities_eq_ok_iff :
    ofEntities es = .ok c ↔
      (es.map Entity.aliasName).Nodup ∧
        (∀ r ∈ references ⟨es⟩, r.2.2 ∈ es.map Entity.aliasName) ∧ c = ⟨es⟩ := by
  unfold ofEntities
  simp only [exceptBind_eq_ok_iff, addAll_empty_eq_ok_iff, validateReferences_eq_ok_iff, pure,
    Except.pure, Except.ok.injEq]
  constructor
  · rintro ⟨d, ⟨hnodup, rfl⟩, u, hrefs, rfl⟩
    exact ⟨hnodup, hrefs, rfl⟩
  · rintro ⟨hnodup, hrefs, rfl⟩
    exact ⟨⟨es⟩, ⟨hnodup, rfl⟩, (), hrefs, rfl⟩

/-- Entities are refused for the first alias that is repeated, or else for the first reference
that names no alias. -/
theorem ofEntities_eq_error_iff :
    ofEntities es = .error err ↔
      (∃ before a after, es.map Entity.aliasName = before ++ a :: after ∧ before.Nodup ∧
        a ∈ before ∧ err = .duplicateAlias a) ∨
      ((es.map Entity.aliasName).Nodup ∧ ∃ before entity property target after,
        references ⟨es⟩ = before ++ (entity, property, target) :: after ∧
          (∀ r ∈ before, r.2.2 ∈ es.map Entity.aliasName) ∧
            target ∉ es.map Entity.aliasName ∧
              err = .unknownReference entity property target) := by
  unfold ofEntities
  simp only [exceptBind_eq_error_iff, addAll_eq_error_iff (c := empty) List.nodup_nil,
    addAll_empty_eq_ok_iff, validateReferences_eq_error_iff, pure, Except.pure, reduceCtorEq,
    and_false, exists_false, or_false]
  refine or_congr (by simp [empty, aliases]) ⟨?_, ?_⟩
  · rintro ⟨d, ⟨hnodup, rfl⟩, hdangling⟩
    exact ⟨hnodup, hdangling⟩
  · rintro ⟨hnodup, hdangling⟩
    exact ⟨⟨es⟩, ⟨hnodup, rfl⟩, hdangling⟩

/-- A catalog that is built in one piece has every alias once. -/
theorem nodup_of_ofEntities (h : ofEntities es = .ok c) : c.aliases.Nodup := by
  obtain ⟨hnodup, -, rfl⟩ := ofEntities_eq_ok_iff.1 h
  exact hnodup

end Catalog

end EntityGraph
