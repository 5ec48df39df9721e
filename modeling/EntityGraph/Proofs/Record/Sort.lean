import EntityGraph.Record.Sort
import Mathlib.Data.List.Sort

/-!
The order that sort keys give to records. Comparing two records the other way round swaps the
answer. Values that do not compare count as equal, so the order need not be transitive; among
records on which it is, sorting gives every record its place, and records that stand in order
already are not moved past each other. Only one list is like that, so that it does not matter how
it is found. Where the order is not transitive there may be none.
-/

namespace EntityGraph

/-! ### Comparing both ways -/

theorem Timestamp.compareTexts?_swap (a b : String) :
    compareTexts? b a = (compareTexts? a b).map Ordering.swap := by
  unfold compareTexts?
  cases parse? a with
  | none => cases parse? b <;> rfl
  | some s =>
    cases parse? b with
    | none => rfl
    | some t => exact congrArg some Std.OrientedOrd.eq_swap

theorem ValueKind.compareTexts_swap (kind : ValueKind) (a b : String) :
    kind.compareTexts b a = (kind.compareTexts a b).swap := by
  cases kind with
  | plain => exact Std.OrientedOrd.eq_swap
  | timestamp =>
    simp only [compareTexts, Timestamp.compareTexts?_swap a b]
    cases Timestamp.compareTexts? a b with
    | none => exact Std.OrientedOrd.eq_swap
    | some o => rfl

theorem Binary64.compare_swap (x y : Binary64) : y.compare x = (x.compare y).swap :=
  Std.OrientedOrd.eq_swap

theorem ValueKind.compare?_swap (kind : ValueKind) (a b : Json) :
    kind.compare? b a = (kind.compare? a b).map Ordering.swap := by
  have hnumbers : ∀ x y : Binary64,
      some (y.compare x) = (some (x.compare y)).map Ordering.swap :=
    fun x y => congrArg some (Binary64.compare_swap x y)
  -- values of different classes do not compare either way
  cases a with
  | str a =>
    cases b with
    | str b => exact congrArg some (kind.compareTexts_swap a b)
    | _ => rfl
  | bool a =>
    cases b with
    | bool b => exact congrArg some Std.OrientedOrd.eq_swap
    | _ => rfl
  | int m =>
    cases b with
    | int _ | float _ => exact hnumbers _ _
    | _ => rfl
  | float x =>
    cases b with
    | int _ | float _ => exact hnumbers _ _
    | _ => rfl
  | null | arr _ | obj _ => cases b <;> rfl

namespace SortKey

theorem ascendingOrder_swap (kind : ValueKind) (a b : Option Json) :
    ascendingOrder kind b a = (ascendingOrder kind a b).swap := by
  cases a with
  | none => cases b <;> rfl
  | some a =>
    cases b with
    | none => rfl
    | some b =>
      simp only [ascendingOrder, kind.compare?_swap a b]
      cases kind.compare? a b <;> rfl

theorem compare_swap (k : SortKey) (a b : Json) : k.compare b a = (k.compare a b).swap := by
  simp only [compare, ascendingOrder_swap k.kind (k.value? a) (k.value? b)]
  cases k.direction <;> rfl

end SortKey

theorem compareRecords_swap (keys : List SortKey) (a b : Json) :
    compareRecords keys b a = (compareRecords keys a b).swap := by
  induction keys with
  | nil => rfl
  | cons k keys ih => rw [compareRecords, compareRecords, Ordering.swap_then, k.compare_swap, ih]

/-! ### Insertion -/

section

variable {α β : Type} (cmp : α → α → Ordering)

theorem insertLast_eq (x : α) (ys : List α) :
    insertLast cmp x ys = ys.orderedInsert (fun a b => cmp a b ≠ .lt) x := by
  induction ys with
  | nil => rfl
  | cons y ys ih =>
    by_cases h : cmp x y = .lt
    · simp [insertLast, h, ih]
    · simp [insertLast, h]

/-- Read from its end, the sorted list comes from inserting the values from the end. -/
theorem sortByInsertion_eq (xs : List α) :
    sortByInsertion cmp xs =
      (xs.reverse.insertionSort fun a b => cmp a b ≠ .lt).reverse := by
  simp only [sortByInsertion, insertLast_eq, List.insertionSort, List.foldr_reverse]

theorem sortByInsertion_perm (xs : List α) : (sortByInsertion cmp xs).Perm xs := by
  rw [sortByInsertion_eq]
  exact (List.reverse_perm _).trans ((List.perm_insertionSort _ _).trans (List.reverse_perm xs))

theorem map_sortByInsertion (f : α → β) (cmp : β → β → Ordering) (xs : List α) :
    (sortByInsertion (fun a b => cmp (f a) (f b)) xs).map f = sortByInsertion cmp (xs.map f) := by
  have hmap := List.map_insertionSort (fun a b => cmp (f a) (f b) ≠ .lt)
    (fun a b => cmp a b ≠ .lt) f xs.reverse fun _ _ _ _ => Iff.rfl
  rw [sortByInsertion_eq, sortByInsertion_eq, List.map_reverse, hmap, List.map_reverse]

/-- Values of which none comes strictly before an earlier one stay where they are. -/
theorem sortByInsertion_of_pairwise {xs : List α} (h : xs.Pairwise fun a b => cmp b a ≠ .lt) :
    sortByInsertion cmp xs = xs := by
  rw [sortByInsertion_eq, (List.pairwise_reverse.2 h).insertionSort_eq, List.reverse_reverse]

variable [Std.TransCmp cmp]

theorem ne_lt_iff_isLE {a b : α} : cmp a b ≠ .lt ↔ (cmp b a).isLE = true := by
  have hswap : cmp a b = (cmp b a).swap := Std.OrientedCmp.eq_swap
  rw [hswap]
  cases cmp b a <;> decide

theorem isTrans_ne_lt : IsTrans α fun a b => cmp a b ≠ .lt := by
  refine ⟨fun a b c hab hbc => ?_⟩
  rw [ne_lt_iff_isLE] at hab hbc ⊢
  exact Std.TransCmp.isLE_trans hbc hab

theorem total_ne_lt : Std.Total fun a b => cmp a b ≠ .lt := by
  refine ⟨fun a b => ?_⟩
  have hswap : cmp a b = (cmp b a).swap := Std.OrientedCmp.eq_swap
  rw [hswap]
  cases cmp b a <;> decide

theorem sortByInsertion_pairwise (xs : List α) :
    (sortByInsertion cmp xs).Pairwise fun a b => (cmp a b).isLE = true := by
  have := isTrans_ne_lt cmp
  have := total_ne_lt cmp
  rw [sortByInsertion_eq, List.pairwise_reverse]
  exact (List.pairwise_insertionSort _ _).imp (ne_lt_iff_isLE cmp).1

/-- Values that stand in order are not moved past each other. -/
theorem sublist_sortByInsertion {part xs : List α} (hsub : part.Sublist xs)
    (hpart : part.Pairwise fun a b => (cmp a b).isLE = true) :
    part.Sublist (sortByInsertion cmp xs) := by
  have := isTrans_ne_lt cmp
  have := total_ne_lt cmp
  have hreverse : part.reverse.Pairwise fun a b => cmp a b ≠ .lt :=
    List.pairwise_reverse.2 (hpart.imp (ne_lt_iff_isLE cmp).2)
  have hlast := List.sublist_insertionSort hreverse hsub.reverse
  rw [sortByInsertion_eq, ← part.reverse_reverse]
  exact hlast.reverse

end

/-! ### Sorting -/

/-- The first record may stand before the second. -/
def InOrder (keys : List SortKey) (a b : Json) : Prop := (compareRecords keys a b).isLE = true

/-- The order of the keys is transitive on the records. -/
def OrderedBy (keys : List SortKey) (records : List Json) : Prop :=
  ∀ a ∈ records, ∀ b ∈ records, ∀ c ∈ records,
    InOrder keys a b → InOrder keys b c → InOrder keys a c

/-- The second list has the records of the first in order, and those that stood in order before
have not been moved past each other. -/
structure StablySorted (keys : List SortKey) (records sorted : List Json) : Prop where
  perm : sorted.Perm records
  inOrder : sorted.Pairwise (InOrder keys)
  stable : ∀ part : List Json, part.Sublist records → part.Pairwise (InOrder keys) →
    part.Sublist sorted

theorem sortRecords_perm (keys : List SortKey) (records : List Json) :
    (sortRecords keys records).Perm records := sortByInsertion_perm _ records

theorem sortRecords_nil (records : List Json) : sortRecords [] records = records :=
  sortByInsertion_of_pairwise _ (List.pairwise_of_forall fun _ _ => nofun)

/-- **Sorting is stable**, where the order of the keys is transitive on the records. -/
theorem sortRecords_stable {keys : List SortKey} {records : List Json}
    (h : OrderedBy keys records) : StablySorted keys records (sortRecords keys records) := by
  -- on the members of the list the order is transitive everywhere
  let cmp : {a // a ∈ records} → {a // a ∈ records} → Ordering := fun a b => compareRecords keys a b
  have htrans : Std.TransCmp cmp :=
    { eq_swap := fun {a b} => compareRecords_swap keys b a
      isLE_trans := fun {a b c} => h a a.2 b b.2 c c.2 }
  have hsort : sortRecords keys records = (sortByInsertion cmp records.attach).map Subtype.val := by
    rw [map_sortByInsertion Subtype.val (compareRecords keys), List.attach_map_subtype_val,
      sortRecords]
  refine ⟨sortRecords_perm keys records, ?_, fun part hsub hpart => ?_⟩
  · rw [hsort]
    exact List.pairwise_map.2 (sortByInsertion_pairwise cmp records.attach)
  · rw [← List.attach_map_subtype_val records] at hsub
    obtain ⟨members, hmembers, rfl⟩ := List.sublist_map_iff.1 hsub
    rw [hsort]
    exact (sublist_sortByInsertion cmp hmembers (List.pairwise_map.1 hpart)).map _

/-! ### Stably sorted lists -/

/-- The records that equal one on every key. -/
def equalRecords (keys : List SortKey) (a : Json) (records : List Json) : List Json :=
  records.filter fun b => (compareRecords keys a b).isEq

/-- In a list without repetitions, standing one before the other is transitive. -/
theorem pair_sublist_trans {α : Type} {a b c : α} {xs : List α} (hnodup : xs.Nodup)
    (hab : [a, b].Sublist xs) (hbc : [b, c].Sublist xs) : [a, c].Sublist xs := by
  induction xs with
  | nil => cases hab
  | cons x xs ih =>
    obtain ⟨hx, hxs⟩ := List.nodup_cons.1 hnodup
    cases hab with
    | cons _ hab =>
      cases hbc with
      | cons _ hbc => exact (ih hxs hab hbc).cons x
      | cons_cons => exact absurd (hab.subset (List.mem_cons_of_mem a List.mem_cons_self)) hx
    | cons_cons _ hb =>
      cases hbc with
      | cons _ hbc => exact ((List.sublist_cons_self b [c]).trans hbc).cons_cons _
      | cons_cons => exact absurd (hb.subset List.mem_cons_self) hx

section

variable {keys : List SortKey} {records sorted other : List Json} {a b c : Json}

theorem equalRecords_cons (keys : List SortKey) (a b : Json) (bs : List Json) :
    equalRecords keys a (b :: bs) =
      if (compareRecords keys a b).isEq then b :: equalRecords keys a bs
      else equalRecords keys a bs := by
  simp only [equalRecords, List.filter_cons]

theorem compareRecords_isEq_iff :
    (compareRecords keys a b).isEq = true ↔ InOrder keys a b ∧ InOrder keys b a := by
  rw [InOrder, InOrder, compareRecords_swap keys a b]
  cases compareRecords keys a b <;> decide

theorem inOrder_self (keys : List SortKey) (a : Json) : InOrder keys a a := by
  have hswap := compareRecords_swap keys a a
  rw [InOrder]
  cases hself : compareRecords keys a a <;> simp_all

/-- Equal records keep their order. -/
theorem StablySorted.equalRecords_eq (hs : StablySorted keys records sorted)
    (h : OrderedBy keys records) (ha : a ∈ records) :
    equalRecords keys a sorted = equalRecords keys a records := by
  have hpart : (equalRecords keys a records).Pairwise (InOrder keys) := by
    refine List.pairwise_of_forall_mem_list fun b hb c hc => ?_
    obtain ⟨hb, heqb⟩ := List.mem_filter.1 hb
    obtain ⟨hc, heqc⟩ := List.mem_filter.1 hc
    exact h b hb a ha c hc (compareRecords_isEq_iff.1 heqb).2 (compareRecords_isEq_iff.1 heqc).1
  -- they are in the sorted list in the order they had, and it has no others
  have hsub : (equalRecords keys a records).Sublist (equalRecords keys a sorted) := by
    have hkept := (hs.stable _ List.filter_sublist hpart).filter
      fun b => (compareRecords keys a b).isEq
    simpa [equalRecords] using hkept
  have hlength : (equalRecords keys a records).length = (equalRecords keys a sorted).length :=
    (hs.perm.filter _).length_eq.symm
  exact (hsub.eq_of_length hlength).symm

/-- Two lists in order are one if equal records stand alike in both. -/
theorem eq_of_equalRecords_eq {xs ys : List Json} (hxs : xs.Pairwise (InOrder keys))
    (hys : ys.Pairwise (InOrder keys)) (hperm : xs.Perm ys)
    (h : ∀ a ∈ xs, equalRecords keys a xs = equalRecords keys a ys) : xs = ys := by
  induction xs generalizing ys with
  | nil => exact hperm.nil_eq
  | cons x xs ih =>
    cases ys with
    | nil => exact hperm.eq_nil
    | cons y ys =>
      obtain ⟨hx, hxs'⟩ := List.pairwise_cons.1 hxs
      obtain ⟨hy, hys'⟩ := List.pairwise_cons.1 hys
      -- the two first records are equal on the keys, so each is the first of those that equal it
      have hhead : x = y := by
        by_contra hne
        have hyx : y ∈ xs := (List.mem_cons.1 (hperm.mem_iff.2 List.mem_cons_self)).resolve_left
          (Ne.symm hne)
        have hxy : x ∈ ys := (List.mem_cons.1 (hperm.mem_iff.1 List.mem_cons_self)).resolve_left hne
        have hequals := h x List.mem_cons_self
        have hself := inOrder_self keys x
        rw [equalRecords_cons, equalRecords_cons, if_pos (compareRecords_isEq_iff.2 ⟨hself, hself⟩),
          if_pos (compareRecords_isEq_iff.2 ⟨hx y hyx, hy x hxy⟩)] at hequals
        exact hne (List.cons.inj hequals).1
      subst hhead
      refine congrArg (x :: ·) (ih hxs' hys' hperm.cons_inv fun a ha => ?_)
      have hequals := h a (List.mem_cons_of_mem x ha)
      rw [equalRecords_cons, equalRecords_cons] at hequals
      split at hequals
      · exact (List.cons.inj hequals).2
      · exact hequals

/-- **There is one stably sorted list**, where the order of the keys is transitive on the records:
the one that sorting gives. -/
theorem stablySorted_iff (h : OrderedBy keys records) :
    StablySorted keys records other ↔ other = sortRecords keys records := by
  have hsorted := sortRecords_stable h
  refine ⟨fun hother => ?_, ?_⟩
  · refine eq_of_equalRecords_eq hother.inOrder hsorted.inOrder
      (hother.perm.trans hsorted.perm.symm) fun a ha => ?_
    have ha := hother.perm.mem_iff.1 ha
    rw [hother.equalRecords_eq h ha, hsorted.equalRecords_eq h ha]
  · rintro rfl
    exact hsorted

/-- **Some records cannot be stably sorted.** Two records that stand in order keep their places, and
so do the second and a third one; then the first and the third have to be in order as well. -/
theorem not_stablySorted (hnodup : records.Nodup) (hsub : [a, b, c].Sublist records)
    (hab : InOrder keys a b) (hbc : InOrder keys b c) (hac : ¬InOrder keys a c) :
    ¬StablySorted keys records sorted := by
  intro hs
  have hfirst : [a, b].Sublist sorted := hs.stable _
    ((List.sublist_append_left [a, b] [c]).trans hsub) (List.pairwise_pair.2 hab)
  have hsecond : [b, c].Sublist sorted := hs.stable _
    ((List.sublist_cons_self a [b, c]).trans hsub) (List.pairwise_pair.2 hbc)
  have hends := pair_sublist_trans (hs.perm.nodup_iff.2 hnodup) hfirst hsecond
  exact hac (List.pairwise_pair.1 (hs.inOrder.sublist hends))

end

end EntityGraph
