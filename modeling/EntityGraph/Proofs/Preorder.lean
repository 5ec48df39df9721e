import EntityGraph.Proofs.Traversal
import Mathlib.Data.List.Lex

/-!
Computations that may be refused, along a tree. Below a place stand further places, in order; a
path leads down from place to place by indices. Paths in the order of lists are the places in the
order in which they are read: a place before those below it, and each of these, with all that is
below it, before the next. A computation that fails for the fault of a place, or else as the first
place below that fails, fails for the first fault that there is.
-/

namespace EntityGraph

variable {α β ε : Type}

/-! ### Refusals -/

/-- The error of a computation that is refused. -/
def refusal? : Except ε α → Option ε
  | .error e => some e
  | .ok _ => none

theorem refusal?_eq_some_iff {x : Except ε α} {e : ε} : refusal? x = some e ↔ x = .error e := by
  cases x <;> simp [refusal?]

theorem refusal?_eq_none_iff {x : Except ε α} : refusal? x = none ↔ ∃ a, x = .ok a := by
  cases x <;> simp [refusal?]

@[simp] theorem refusal?_map (x : Except ε α) (f : α → β) : refusal? (x.map f) = refusal? x := by
  cases x <;> rfl

/-! ### Paths -/

section Paths

variable (below : α → List α)

/-- The place that a path leads to. -/
def placeAt? : α → List ℕ → Option α
  | a, [] => some a
  | a, i :: path => (below a)[i]?.bind fun b => placeAt? b path

variable {below}

@[simp] theorem placeAt?_nil (a : α) : placeAt? below a [] = some a := rfl

theorem placeAt?_cons_eq_some_iff {a x : α} {i : ℕ} {path : List ℕ} :
    placeAt? below a (i :: path) = some x ↔
      ∃ b, (below a)[i]? = some b ∧ placeAt? below b path = some x := by
  simp [placeAt?, Option.bind_eq_some_iff]

/-- What holds of all places holds of the place itself and of all places of those below it. -/
theorem forall_placeAt?_iff {P : α → Prop} {a : α} :
    (∀ path x, placeAt? below a path = some x → P x) ↔
      P a ∧ ∀ b ∈ below a, ∀ path x, placeAt? below b path = some x → P x := by
  constructor
  · refine fun h => ⟨h [] a rfl, fun b hb path x hx => ?_⟩
    obtain ⟨i, hi⟩ := List.mem_iff_getElem?.1 hb
    exact h (i :: path) x (placeAt?_cons_eq_some_iff.2 ⟨b, hi, hx⟩)
  · rintro ⟨ha, hbelow⟩ (_ | ⟨i, path⟩) x hx
    · exact Option.some.inj hx ▸ ha
    · obtain ⟨b, hi, hx⟩ := placeAt?_cons_eq_some_iff.1 hx
      exact hbelow b (List.mem_iff_getElem?.2 ⟨i, hi⟩) path x hx

end Paths

/-! ### The first fault -/

/-- **The first fault of a tree**: a place on some path has it, and no place on an earlier path has
any. -/
def FirstFault (below : α → List α) (fault : α → Option ε) (a : α) (e : ε) : Prop :=
  ∃ path x, placeAt? below a path = some x ∧ fault x = some e ∧
    ∀ earlier < path, ∀ y, placeAt? below a earlier = some y → fault y = none

section Fault

variable {below : α → List α} {fault failure : α → Option ε} {a : α} {e e' : ε}

/-- There is one first fault at most. -/
theorem FirstFault.eq (h : FirstFault below fault a e) (h' : FirstFault below fault a e') :
    e = e' := by
  obtain ⟨path, x, hx, hfault, hfirst⟩ := h
  obtain ⟨path', x', hx', hfault', hfirst'⟩ := h'
  rcases lt_trichotomy path path' with hlt | rfl | hlt
  · exact nomatch hfault.symm.trans (hfirst' path hlt x hx)
  · obtain rfl := Option.some.inj (hx.symm.trans hx')
    exact Option.some.inj (hfault.symm.trans hfault')
  · exact nomatch hfault'.symm.trans (hfirst path' hlt x' hx')

/-- A fault of the place itself comes first. -/
theorem FirstFault.here (h : fault a = some e) : FirstFault below fault a e :=
  ⟨[], a, rfl, h, fun _ hlt => absurd hlt (List.not_lt_nil _)⟩

/-- The first fault of a place below comes first where nothing before it has any. -/
theorem FirstFault.there {b : α} {before after : List α} (ha : fault a = none)
    (hsplit : below a = before ++ b :: after)
    (hbefore : ∀ c ∈ before, ∀ path x, placeAt? below c path = some x → fault x = none)
    (h : FirstFault below fault b e) : FirstFault below fault a e := by
  obtain ⟨path, x, hx, hfault, hfirst⟩ := h
  have hb : (below a)[before.length]? = some b := by simp [hsplit]
  refine ⟨before.length :: path, x, placeAt?_cons_eq_some_iff.2 ⟨b, hb, hx⟩, hfault, ?_⟩
  rintro (_ | ⟨i, earlier⟩) hearlier y hy
  · exact Option.some.inj hy ▸ ha
  · obtain ⟨c, hc, hy⟩ := placeAt?_cons_eq_some_iff.1 hy
    rcases List.cons_lt_cons_iff.1 hearlier with hi | ⟨rfl, hlt⟩
    · rw [hsplit, List.getElem?_append_left hi] at hc
      exact hbefore c (List.mem_of_getElem? hc) earlier y hy
    · obtain rfl := Option.some.inj (hb.symm.trans hc)
      exact hfirst earlier hlt y hy

variable (size : α → ℕ) (hsize : ∀ a, ∀ b ∈ below a, size b < size a)
  (hfailure : ∀ a, failure a = (fault a).or ((below a).findSome? failure))

include hsize hfailure

/-- What reads its places one after the other goes through where no place has a fault. -/
theorem failure_eq_none_iff (a : α) :
    failure a = none ↔ ∀ path x, placeAt? below a path = some x → fault x = none := by
  induction hn : size a using Nat.strongRecOn generalizing a with
  | ind n ih =>
    subst hn
    rw [hfailure, Option.or_eq_none_iff, List.findSome?_eq_none_iff, forall_placeAt?_iff]
    refine and_congr_right fun _ => forall₂_congr fun b hb => ?_
    exact ih _ (hsize a b hb) b rfl

theorem firstFault_of_failure (a : α) (h : failure a = some e) : FirstFault below fault a e := by
  induction hn : size a using Nat.strongRecOn generalizing a with
  | ind n ih =>
    subst hn
    rw [hfailure, Option.or_eq_some_iff, List.findSome?_eq_some_iff] at h
    rcases h with ha | ⟨ha, before, b, after, hsplit, hb, hbefore⟩
    · exact .here ha
    · have hmem : b ∈ below a := hsplit ▸ List.mem_append_right _ List.mem_cons_self
      refine .there ha hsplit (fun c hc => ?_) (ih _ (hsize a b hmem) b hb rfl)
      exact (failure_eq_none_iff size hsize hfailure c).1 (hbefore c hc)

/-- **What reads its places one after the other fails for the first fault.** -/
theorem failure_eq_some_iff (a : α) (e : ε) :
    failure a = some e ↔ FirstFault below fault a e := by
  refine ⟨firstFault_of_failure size hsize hfailure a, fun h => ?_⟩
  cases hf : failure a with
  | some e' => rw [(firstFault_of_failure size hsize hfailure a hf).eq h]
  | none =>
    obtain ⟨path, x, hx, hfault, -⟩ := h
    rw [(failure_eq_none_iff size hsize hfailure a).1 hf path x hx] at hfault
    cases hfault

end Fault

end EntityGraph
