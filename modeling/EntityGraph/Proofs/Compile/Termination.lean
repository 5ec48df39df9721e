import EntityGraph.Proofs.Compile.Demand
import Mathlib.Data.Finset.Card

/-!
Compilations end. Entering the fields of an entity reserves a name that was free, and no name
becomes free again, so that the entities referred to from there find fewer names free. Hence the
bound on chains of references is never met: compiling an entity satisfies the equation of the
recursion itself, and nothing else does.
-/

namespace EntityGraph

open Compile

/-! ### Reserved names stay reserved -/

/-- Every reserved name stays reserved. -/
def TypeRegistry.Keeps (r s : TypeRegistry) : Prop :=
  ∀ n, r.contains n = true → s.contains n = true

namespace TypeRegistry

variable {r s t : TypeRegistry}

theorem Keeps.refl (r : TypeRegistry) : r.Keeps r := fun _ h => h

theorem Keeps.trans (h : r.Keeps s) (h' : s.Keeps t) : r.Keeps t := fun n hn => h' n (h n hn)

theorem contains_enter (r : TypeRegistry) (name f n : String) :
    (r.enter name f).contains n = true ↔ n = name ∨ r.contains n = true := by
  unfold contains enter Fields.contains
  rw [Fields.get?_insert]
  by_cases h : name = n
  · simp [h]
  · simp [h, Ne.symm h]

theorem keeps_enter (r : TypeRegistry) (name f : String) : r.Keeps (r.enter name f) :=
  fun n h => (contains_enter r name f n).2 (Or.inr h)

theorem keeps_finish (u : TypeUse) (name : String) (d : Option String) (fs : List FieldDef) :
    r.Keeps (u.finish name d fs r) := by
  intro n h
  unfold TypeUse.finish
  split <;> exact h

end TypeRegistry

/-! ### Steps that agree -/

/-- Two steps do the same at a registry; they keep what is reserved and do not stop for the
length of a chain. -/
structure Agree {α : Type} (c d : Compile α) (r : TypeRegistry) : Prop where
  eq : c r = d r
  keeps : r.Keeps (c r).2
  ends : (c r).1 ≠ .error .chainTooLong

namespace Agree

variable {α β : Type} {c d : Compile α} {f g : α → Compile β} {r : TypeRegistry}

theorem pure (a : α) (r : TypeRegistry) : Agree (Pure.pure a : Compile α) (Pure.pure a) r :=
  ⟨rfl, .refl r, by simp⟩

theorem refuse (e : SchemaError) (r : TypeRegistry) : Agree (refuse e : Compile α) (refuse e) r :=
  ⟨rfl, .refl r, by simp⟩

theorem bind (h : Agree c d r)
    (hf : ∀ a s, r.Keeps s → Agree (f a) (g a) s) : Agree (c >>= f) (d >>= g) r := by
  obtain ⟨heq, hkeeps, hends⟩ := h
  rcases hc : c r with ⟨a | a, s⟩
  · rw [hc] at heq hends
    refine ⟨?_, ?_, ?_⟩
    · rw [bind_error hc, bind_error heq.symm]
    · rw [bind_error hc]
      simpa [hc] using hkeeps
    · rw [bind_error hc]
      simpa using hends
  · rw [hc] at heq hkeeps
    have h' := hf a s hkeeps
    refine ⟨?_, ?_, ?_⟩
    · rw [bind_ok hc, bind_ok heq.symm, h'.eq]
    · rw [bind_ok hc]
      exact hkeeps.trans h'.keeps
    · rw [bind_ok hc]
      exact h'.ends

theorem checkName (name : String) (r : TypeRegistry) :
    Agree (checkName name) (checkName name) r := by
  cases h : Name.Valid name with
  | true => exact ⟨rfl, by rw [checkName_of_valid h]; exact .refl r, by simp [checkName_of_valid h]⟩
  | false =>
    exact ⟨rfl, by rw [checkName_of_not_valid h]; exact .refl r, by simp [checkName_of_not_valid h]⟩

theorem addField (typeName : String) (name : α → String) (fields : List α) (a : α)
    (r : TypeRegistry) :
    Agree (addField typeName name fields a) (addField typeName name fields a) r := by
  by_cases h : name a ∈ fields.map name
  · exact ⟨rfl, by rw [addField_of_mem h]; exact .refl r, by simp [addField_of_mem h]⟩
  · exact ⟨rfl, by rw [addField_of_notMem h]; exact .refl r, by simp [addField_of_notMem h]⟩

theorem addFields (typeName : String) (name : α → String) (before fs : List α)
    (r : TypeRegistry) :
    Agree (addFields typeName name before fs) (addFields typeName name before fs) r := by
  induction fs generalizing before r with
  | nil => exact .pure _ r
  | cons f fs ih => exact (addField typeName name before f r).bind fun before' s _ => ih before' s

theorem change {f : TypeRegistry → TypeRegistry} (h : r.Keeps (f r)) :
    Agree (change f) (change f) r := ⟨rfl, h, by simp⟩

/-- A type is built only where its name is free, from the registry that has it reserved. -/
theorem unlessReserved {name : String} {s : Signature} {b b' : Compile Unit}
    (h : r.contains name = false → Agree b b' (r.enter name s.fingerprint)) :
    Agree (unlessReserved name s b) (unlessReserved name s b') r := by
  cases hg : Fields.get? r.fingerprints name with
  | none =>
    obtain ⟨heq, hkeeps, hends⟩ := h (by simp [TypeRegistry.contains, Fields.contains, hg])
    refine ⟨?_, ?_, ?_⟩ <;> rw [unlessReserved_free hg]
    · rw [unlessReserved_free hg, heq]
    · exact (TypeRegistry.keeps_enter r name _).trans hkeeps
    · exact hends
  | some f =>
    by_cases hf : f = s.fingerprint
    · subst hf
      refine ⟨?_, ?_, ?_⟩ <;> rw [unlessReserved_same hg]
      · rw [unlessReserved_same hg]
      · exact .refl r
      · simp
    · refine ⟨?_, ?_, ?_⟩ <;> rw [unlessReserved_other hg hf]
      · rw [unlessReserved_other hg hf]
      · exact .refl r
      · simp

end Agree

/-! ### Types of properties -/

section Property

variable {c : Catalog} {u : TypeUse} {enter enter' : Entity → Compile String} {base : TypeRegistry}

theorem memberFields_agree {ms : List (String × ProjectedField)}
    (h : ∀ m ∈ ms, ∀ name r, base.Keeps r →
      Agree (propertyType c u enter name m.2.type) (propertyType c u enter' name m.2.type) r)
    (name : String) (before : List FieldDef) {r : TypeRegistry} (hr : base.Keeps r) :
    Agree (memberFields c u enter name before ms) (memberFields c u enter' name before ms) r := by
  induction ms generalizing before r with
  | nil => exact .pure _ _
  | cons m ms ih =>
    unfold memberFields
    refine (Agree.checkName _ r).bind fun _ s hs => ?_
    refine (h m List.mem_cons_self _ s (hr.trans hs)).bind fun t s' hs' => ?_
    refine (Agree.addField _ _ _ _ s').bind fun before' s'' hs'' => ?_
    exact ih (fun m hm => h m (List.mem_cons_of_mem _ hm)) before'
      (hr.trans (hs.trans (hs'.trans hs'')))

theorem generate_agree {ms : List (String × ProjectedField)} {name : String} {s : Signature}
    {r : TypeRegistry}
    (h : r.contains name = false → ∀ m ∈ ms, ∀ n t, (r.enter name s.fingerprint).Keeps t →
      Agree (propertyType c u enter n m.2.type) (propertyType c u enter' n m.2.type) t)
    (d : Option String) (before : List FieldDef) :
    Agree (generate c u enter name s d before ms) (generate c u enter' name s d before ms) r := by
  unfold generate
  cases hn : Name.Valid name with
  | false =>
    refine ⟨?_, ?_, ?_⟩ <;> rw [bind_error (checkName_of_not_valid hn r)]
    · rw [bind_error (checkName_of_not_valid hn r)]
    · exact .refl r
    · simp
  | true =>
    have hagree := Agree.unlessReserved (r := r) (s := s) fun hfree =>
      (memberFields_agree (h hfree) name before (.refl _)).bind fun fs t _ =>
        Agree.change (TypeRegistry.keeps_finish u name d fs)
    obtain ⟨heq, hkeeps, hends⟩ := hagree
    refine ⟨?_, ?_, ?_⟩ <;> rw [bind_ok (checkName_of_valid hn r)]
    · rw [bind_ok (checkName_of_valid hn r)]
      exact heq
    · exact hkeeps
    · exact hends

/-- The type of a property depends on how entities are compiled only at registries that keep what
is reserved, and for entities of the catalog. -/
theorem propertyType_agree
    (h : ∀ a e r, c.get? a = some e → base.Keeps r → Agree (enter e) (enter' e) r)
    (t : PropertyType) (name : String) {r : TypeRegistry} (hr : base.Keeps r) :
    Agree (propertyType c u enter name t) (propertyType c u enter' name t) r := by
  induction t using PropertyType.induct generalizing name r with
  | scalar k =>
    rw [propertyType_scalar, propertyType_scalar]
    exact .pure _ r
  | array t ih =>
    rw [propertyType_array, propertyType_array]
    exact (ih name hr).bind fun _ s _ => .pure _ s
  | reference a =>
    cases ha : c.get? a with
    | none =>
      rw [propertyType_unknown _ _ _ ha, propertyType_unknown _ _ _ ha]
      exact .refuse _ r
    | some e =>
      rw [propertyType_reference _ _ _ ha, propertyType_reference _ _ _ ha]
      exact (h a e r ha hr).bind fun _ s _ => .pure _ s
  | shape fs ih =>
    by_cases hfs : fs = []
    · rw [hfs, propertyType_empty, propertyType_empty]
      exact .refuse _ r
    · rw [propertyType_shape _ _ _ hfs, propertyType_shape _ _ _ hfs]
      refine (generate_agree (fun _ m hm n s hs => ?_) _ _).bind fun _ s _ => .pure _ s
      obtain ⟨f, hf, rfl⟩ := List.mem_map.1 hm
      exact ih f hf n (hr.trans ((TypeRegistry.keeps_enter r _ _).trans hs))

end Property

/-! ### Names that are free -/

namespace TypeRegistry

/-- The aliases under which the type of an entity is still to be built. -/
def free (r : TypeRegistry) (u : TypeUse) (as : List String) : Finset String :=
  as.toFinset.filter fun a => r.contains (u.typeName a) = false

variable {r s : TypeRegistry} {u : TypeUse} {as bs : List String}

theorem mem_free {a : String} :
    a ∈ r.free u as ↔ a ∈ as ∧ r.contains (u.typeName a) = false := by
  simp [free]

theorem Keeps.free_of_free (h : r.Keeps s) {n : String} (hn : s.contains n = false) :
    r.contains n = false := by
  by_contra hr
  rw [h n (by simpa using hr)] at hn
  exact absurd hn (by decide)

theorem Keeps.free_subset (h : r.Keeps s) (hbs : bs ⊆ as) : s.free u bs ⊆ r.free u as := by
  intro a ha
  rw [mem_free] at ha ⊢
  exact ⟨hbs ha.1, h.free_of_free ha.2⟩

theorem Keeps.card_free_le (h : r.Keeps s) (hbs : bs ⊆ as) :
    (s.free u bs).card ≤ (r.free u as).card := Finset.card_le_card (h.free_subset hbs)

/-- Reserving the name of an alias leaves fewer aliases. -/
theorem Keeps.card_free_lt (h : r.Keeps s) (hbs : bs ⊆ as) {a : String} (ha : a ∈ as)
    (hr : r.contains (u.typeName a) = false) (hs : s.contains (u.typeName a) = true) :
    (s.free u bs).card < (r.free u as).card := by
  refine Finset.card_lt_card ((Finset.ssubset_iff_of_subset (h.free_subset hbs)).2 ⟨a, ?_, ?_⟩)
  · exact mem_free.2 ⟨ha, hr⟩
  · intro hmem
    rw [(mem_free.1 hmem).2] at hs
    exact absurd hs (by decide)

theorem card_free_le_length : (r.free u as).card ≤ as.length :=
  (Finset.card_filter_le _ _).trans (List.toFinset_card_le as)

end TypeRegistry

/-! ### The bound on chains -/

namespace CompileContext

variable (x : CompileContext) (u : TypeUse)

/-- Compiling an entity depends on how the entities it refers to are compiled only where fewer
names are free. -/
theorem enterEntity_agree {enter enter' : Entity → Compile String} {e : Entity}
    {r : TypeRegistry}
    (h : ∀ e' t, (t.free u (e'.aliasName :: x.catalog.aliases)).card <
      (r.free u (e.aliasName :: x.catalog.aliases)).card → Agree (enter e') (enter' e') t) :
    Agree (x.enterEntity u enter e) (x.enterEntity u enter' e) r := by
  rw [enterEntity_eq, enterEntity_eq]
  refine (generate_agree (fun hfree f _ name s hs => ?_) _ _).bind fun _ s _ => .pure _ s
  refine propertyType_agree (fun a e' t ha ht => h e' t ?_) f.2.type name hs
  -- the entity that is left has taken its name, so the one that is referred to finds fewer free
  refine ((TypeRegistry.keeps_enter r _ _).trans ht).card_free_lt (fun b hb => ?_)
    List.mem_cons_self hfree (ht _ ((TypeRegistry.contains_enter _ _ _ _).2 (Or.inl rfl)))
  rcases List.mem_cons.1 hb with rfl | hb
  · exact List.mem_cons_of_mem _ (List.mem_map_of_mem (Catalog.mem_of_get? ha))
  · exact List.mem_cons_of_mem _ hb

/-- **More references than free names make no difference.** -/
theorem entityTypeWithin_agree {n m : ℕ} {e : Entity} {r : TypeRegistry}
    (hn : (r.free u (e.aliasName :: x.catalog.aliases)).card < n)
    (hm : (r.free u (e.aliasName :: x.catalog.aliases)).card < m) :
    Agree (x.entityTypeWithin u n e) (x.entityTypeWithin u m e) r := by
  induction n generalizing m e r with
  | zero => exact absurd hn (Nat.not_lt_zero _)
  | succ n ih =>
    obtain ⟨m, rfl⟩ : ∃ k, m = k + 1 := ⟨m - 1, by omega⟩
    exact x.enterEntity_agree u fun e' t hlt => ih (by omega) (by omega)

theorem card_free_lt_chainLimit (e : Entity) (r : TypeRegistry) :
    (r.free u (e.aliasName :: x.catalog.aliases)).card < x.chainLimit := by
  have h : (r.free u (e.aliasName :: x.catalog.aliases)).card ≤
      (e.aliasName :: x.catalog.aliases).length := TypeRegistry.card_free_le_length
  simp only [List.length_cons, Catalog.aliases, List.length_map] at h
  unfold chainLimit
  simp only [Catalog.aliases]
  omega

theorem entityType_agree (e : Entity) (r : TypeRegistry) :
    Agree (x.entityType u e) (x.entityType u e) r :=
  x.entityTypeWithin_agree u (x.card_free_lt_chainLimit u e r) (x.card_free_lt_chainLimit u e r)

/-- **Compiling an entity satisfies the equation of the recursion**, without a bound. -/
theorem entityType_eq (e : Entity) : x.entityType u e = x.enterEntity u (x.entityType u) e := by
  funext r
  have h := x.card_free_lt_chainLimit u e r
  exact (x.entityTypeWithin_agree u h (Nat.lt_succ_of_lt h)).eq

/-- **The equation of the recursion has no other solution.** -/
theorem entityType_unique {enter : Entity → Compile String}
    (h : ∀ e, enter e = x.enterEntity u enter e) : enter = x.entityType u := by
  have hagree : ∀ n e r, (r.free u (e.aliasName :: x.catalog.aliases)).card < n →
      Agree (enter e) (x.entityType u e) r := by
    intro n
    induction n with
    | zero => exact fun e r hn => absurd hn (Nat.not_lt_zero _)
    | succ n ih =>
      intro e r hn
      rw [h e, entityType_eq]
      exact x.enterEntity_agree u fun e' t hlt => ih e' t (by omega)
  funext e r
  exact (hagree _ e r (Nat.lt_succ_self _)).eq

theorem propertyType_agree_self (t : PropertyType) (name : String) (r : TypeRegistry) :
    Agree (x.propertyType u name t) (x.propertyType u name t) r :=
  propertyType_agree (fun _ e s _ _ => x.entityType_agree u e s) t name (.refl r)

theorem filterInput_agree (e : Entity) (r : TypeRegistry) :
    Agree (filterInput e) (filterInput e) r := by
  unfold filterInput
  refine Agree.bind (Agree.unlessReserved fun _ => ?_) fun _ s _ => .pure _ s
  exact (Agree.addFields _ _ _ _ _).bind fun _ s _ => Agree.change fun _ h => h

theorem sortInput_agree (e : Entity) (r : TypeRegistry) : Agree (sortInput e) (sortInput e) r := by
  unfold sortInput
  refine Agree.bind (Agree.unlessReserved fun _ => ?_) fun _ s _ => .pure _ s
  exact (Agree.addFields _ _ _ _ _).bind fun _ s _ => Agree.change fun _ h => h

theorem answer_agree (q : Demand) (r : TypeRegistry) : Agree (x.answer q) (x.answer q) r := by
  cases q with
  | entity u e => exact (x.entityType_agree u e r).bind fun _ s _ => .pure _ s
  | property u name t => exact x.propertyType_agree_self u t name r
  | filter e => exact (filterInput_agree e r).bind fun _ s _ => .pure _ s
  | sort e => exact (sortInput_agree e r).bind fun _ s _ => .pure _ s

end CompileContext

end EntityGraph
