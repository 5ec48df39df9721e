import EntityGraph.Json.Basic
import Mathlib.Data.List.Forall2
import Mathlib.Data.List.Nodup
import Mathlib.Data.List.Perm.Subperm

/-!
Values that are the same JSON. A value in which no object repeats a key is the same as itself, and
objects with the same values under the same keys are the same, whatever order they are written in.
Among such values, being the same is an equivalence: two objects of one length that do not repeat
keys write the same keys when one of them writes the keys of the other.
-/

namespace EntityGraph.Json

theorem distinctFields_iff {fs : Fields Json} : DistinctFields fs ↔ ∀ f ∈ fs, f.2.Distinct := by
  induction fs with
  | nil => simp [DistinctFields]
  | cons f fs ih =>
    obtain ⟨k, v⟩ := f
    rw [DistinctFields, ih, List.forall_mem_cons]

mutual

theorem same_self : ∀ v : Json, v.Distinct → v.same v = true
  | .null, _ => rfl
  | .bool b, _ => beq_self_eq_true b
  | .int n, _ => beq_self_eq_true n
  | .float _, _ => Binary64.same_iff.2 rfl
  | .str s, _ => beq_self_eq_true s
  | .arr xs, h => sameElems_self xs h
  | .obj fs, h => by
    have hfields := sameFields_of_get? fs fs h.2 fun _ hf => Fields.get?_of_mem h.1 hf
    rw [same, hfields, Bool.and_true]
    exact beq_self_eq_true _

theorem sameElems_self : ∀ xs : List Json, DistinctElems xs → sameElems xs xs = true
  | [], _ => rfl
  | x :: xs, h => by
    rw [sameElems, same_self x h.1, sameElems_self xs h.2]
    rfl

/-- Fields are the same as those in which each of them is written. -/
theorem sameFields_of_get? : ∀ fs gs : Fields Json, DistinctFields fs →
    (∀ f ∈ fs, gs.get? f.1 = some f.2) → sameFields fs gs = true
  | [], _, _, _ => rfl
  | (k, v) :: fs, gs, h, hget => by
    obtain ⟨hk, hrest⟩ := List.forall_mem_cons.1 hget
    have hfields := sameFields_of_get? fs gs h.2 hrest
    rw [sameFields, hfields, Bool.and_true]
    simp only [hk, same_self v h.1]

end

/-- **Objects with the same values under the same keys are the same.** -/
theorem same_of_get?_eq {fs gs : Fields Json} (hf : (obj fs).Distinct) (hg : Fields.Distinct gs)
    (h : ∀ k, fs.get? k = gs.get? k) : (obj fs).same (obj gs) = true := by
  have hkeys : ∀ k, k ∈ fs.keys ↔ k ∈ gs.keys := fun k => by
    rw [← Fields.contains_iff, ← Fields.contains_iff, Fields.contains, Fields.contains, h]
  have hlength : fs.length = gs.length := by
    simpa [Fields.keys] using ((List.perm_ext_iff_of_nodup hf.1 hg).2 hkeys).length_eq
  have hfields := sameFields_of_get? fs gs hf.2 fun f hm =>
    (h f.1).symm.trans (Fields.get?_of_mem hf.1 hm)
  rw [same, hfields, hlength, Bool.and_true]
  exact beq_self_eq_true _

/-! ### An equivalence -/

/-- Induction on what stands directly inside a value. -/
@[elab_as_elim]
theorem ind {P : Json → Prop} (null : P .null) (bool : ∀ b, P (.bool b)) (int : ∀ n, P (.int n))
    (float : ∀ x, P (.float x)) (str : ∀ s, P (.str s))
    (arr : ∀ xs, (∀ x ∈ xs, P x) → P (.arr xs))
    (obj : ∀ fs : Fields Json, (∀ f ∈ fs, P f.2) → P (.obj fs)) (v : Json) : P v :=
  -- the motives for lists are that all elements, or all values of the fields, have the property
  @Json.rec P (fun xs => ∀ x ∈ xs, P x) (fun fs => ∀ f ∈ fs, P f.2) (fun f => P f.2)
    null bool int float str arr obj
    (List.forall_mem_nil _) (fun _ _ hx hxs => List.forall_mem_cons.2 ⟨hx, hxs⟩)
    (List.forall_mem_nil _) (fun _ _ hf hfs => List.forall_mem_cons.2 ⟨hf, hfs⟩)
    (fun _ _ hv => hv) v

theorem distinctElems_iff {xs : List Json} : DistinctElems xs ↔ ∀ x ∈ xs, x.Distinct := by
  induction xs with
  | nil => simp [DistinctElems]
  | cons x xs ih => rw [DistinctElems, ih, List.forall_mem_cons]

theorem sameElems_iff {xs ys : List Json} :
    sameElems xs ys = true ↔ List.Forall₂ (fun x y => x.same y = true) xs ys := by
  induction xs generalizing ys with
  | nil => cases ys <;> simp [sameElems]
  | cons x xs ih => cases ys <;> simp [sameElems, ih]

theorem sameFields_iff {fs gs : Fields Json} :
    sameFields fs gs = true ↔ ∀ f ∈ fs, ∃ w, gs.get? f.1 = some w ∧ f.2.same w = true := by
  induction fs with
  | nil => simp [sameFields]
  | cons f fs ih =>
    obtain ⟨k, v⟩ := f
    rw [sameFields, Bool.and_eq_true, ih, List.forall_mem_cons]
    cases gs.get? k <;> simp

/-- Only a list is the same as a list. -/
theorem arr_same_iff {xs : List Json} {w : Json} :
    (arr xs).same w = true ↔
      ∃ ys, w = arr ys ∧ List.Forall₂ (fun x y => x.same y = true) xs ys := by
  cases w <;> simp [same, sameElems_iff]

/-- Only an object is the same as an object. -/
theorem obj_same_iff {fs : Fields Json} {w : Json} :
    (obj fs).same w = true ↔
      ∃ gs : Fields Json, w = obj gs ∧ fs.length = gs.length ∧
        ∀ f ∈ fs, ∃ y, gs.get? f.1 = some y ∧ f.2.same y = true := by
  cases w <;> simp [same, sameFields_iff]

/-- Of two objects of one length, the first writes all keys of the second when the second writes
its keys. -/
theorem keys_subset {fs gs : Fields Json} (hf : fs.Distinct) (hlength : fs.length = gs.length)
    (h : ∀ f ∈ fs, ∃ y, gs.get? f.1 = some y ∧ f.2.same y = true) : gs.keys ⊆ fs.keys := by
  have hsub : fs.keys ⊆ gs.keys := by
    intro k hk
    obtain ⟨f, hmem, rfl⟩ := List.mem_map.1 hk
    obtain ⟨y, hy, -⟩ := h f hmem
    exact List.mem_map.2 ⟨_, Fields.mem_of_get? hy, rfl⟩
  -- distinct keys, as many as the other object has, leave none of its keys out
  have hperm : fs.keys.Perm gs.keys := by
    apply (List.Nodup.subperm hf hsub).perm_of_length_le
    simp [Fields.keys, hlength]
  exact hperm.symm.subset

theorem same_symm {v w : Json} (hv : v.Distinct) (hw : w.Distinct) (h : v.same w = true) :
    w.same v = true := by
  induction v using ind generalizing w with
  | null | bool | int | float | str => cases w <;> simp_all [same, Binary64.same_iff]
  | arr xs ih =>
    obtain ⟨ys, rfl, helems⟩ := arr_same_iff.1 h
    rw [Distinct, distinctElems_iff] at hv hw
    refine arr_same_iff.2 ⟨xs, rfl, ?_⟩
    clear h
    induction helems with
    | nil => exact .nil
    | cons hxy _ ihtail =>
      rw [List.forall_mem_cons] at ih hv hw
      exact .cons (ih.1 hv.1 hw.1 hxy) (ihtail ih.2 hv.2 hw.2)
  | obj fs ih =>
    obtain ⟨gs, rfl, hlength, hfields⟩ := obj_same_iff.1 h
    refine obj_same_iff.2 ⟨fs, rfl, hlength.symm, ?_⟩
    intro g hg
    -- the key of `g` is written in `fs` too, over a value that is the same as that of `g`
    have hkey : g.1 ∈ fs.keys := keys_subset hv.1 hlength hfields (List.mem_map_of_mem hg)
    obtain ⟨f, hf, hfg⟩ := List.mem_map.1 hkey
    obtain ⟨y, hy, hsame⟩ := hfields f hf
    have hwritten : gs.get? f.1 = some g.2 := hfg ▸ Fields.get?_of_mem hw.1 hg
    obtain rfl : y = g.2 := Option.some.inj (hy.symm.trans hwritten)
    refine ⟨f.2, hfg ▸ Fields.get?_of_mem hv.1 hf, ?_⟩
    exact ih f hf (distinctFields_iff.1 hv.2 f hf) (distinctFields_iff.1 hw.2 g hg) hsame

theorem same_trans {u v w : Json} (huv : u.same v = true) (hvw : v.same w = true) :
    u.same w = true := by
  induction u using ind generalizing v w with
  | null | bool | int | float | str =>
    cases v <;> cases w <;> simp_all [same, Binary64.same_iff]
  | arr xs ih =>
    obtain ⟨ys, rfl, hxy⟩ := arr_same_iff.1 huv
    obtain ⟨zs, rfl, hyz⟩ := arr_same_iff.1 hvw
    refine arr_same_iff.2 ⟨zs, rfl, ?_⟩
    clear huv hvw
    induction hxy generalizing zs with
    | nil =>
      cases hyz
      exact .nil
    | cons hx _ ihtail =>
      rw [List.forall_mem_cons] at ih
      cases hyz with
      | cons hy hrest => exact .cons (ih.1 hx hy) (ihtail ih.2 _ hrest)
  | obj fs ih =>
    obtain ⟨gs, rfl, hfg, hfields⟩ := obj_same_iff.1 huv
    obtain ⟨hs, rfl, hgh, hfields'⟩ := obj_same_iff.1 hvw
    refine obj_same_iff.2 ⟨hs, rfl, hfg.trans hgh, ?_⟩
    intro f hf
    obtain ⟨y, hy, hsame⟩ := hfields f hf
    obtain ⟨z, hz, hsame'⟩ := hfields' (f.1, y) (Fields.mem_of_get? hy)
    exact ⟨z, hz, ih f hf hsame hsame'⟩

end EntityGraph.Json
