import EntityGraph.Proofs.Compile.Reservation

/-!
Names that failures leave behind. A demand that fails may leave names under construction: its own,
where this was free, and those of the types around the fault. No later demand finishes them, but
whoever asks for one of them again is referred to it. Every other answer leads to a shared scalar
or to a finished type.
-/

namespace EntityGraph

open Compile

/-! ### Finished names -/

namespace TypeRegistry

variable {r : TypeRegistry} {n : String}

theorem exists_holds_iff :
    (∃ d, r.Holds n d) ↔ n ∈ Fields.keys r.objects ∨ n ∈ Fields.keys r.inputs := by
  have hkeys {α : Type} (fs : List (String × α)) :
      n ∈ Fields.keys fs ↔ ∃ a, Fields.get? fs n = some a :=
    Fields.contains_iff.symm.trans Option.isSome_iff_exists
  rw [hkeys, hkeys]
  constructor
  · rintro ⟨d, hd⟩
    cases d with
    | object o => exact .inl ⟨o, hd⟩
    | input i => exact .inr ⟨i, hd⟩
    | scalar | enum => exact absurd hd (by simp [Holds])
  · rintro (⟨o, ho⟩ | ⟨i, hi⟩)
    · exact ⟨.object o, ho⟩
    · exact ⟨.input i, hi⟩

/-- A reserved name is that of a finished type or of one under construction. -/
theorem Partitioned.exists_holds_iff_notMem (h : r.Partitioned) (hn : r.contains n = true) :
    (∃ d, r.Holds n d) ↔ n ∉ r.generating := by
  rw [exists_holds_iff]
  refine ⟨fun hfinished hgen => ?_, fun hgen => ?_⟩
  · have hnot := h.notMem_finished hgen
    exact hfinished.elim hnot.1 hnot.2
  · rcases List.mem_append.1 (h.parts.mem_iff.1 (contains_iff.1 hn)) with hmem | hmem
    · exact absurd hmem hgen
    · exact List.mem_append.1 hmem

/-- A name under construction is reserved. -/
theorem Partitioned.contains_of_generating (h : r.Partitioned) (hn : n ∈ r.generating) :
    r.contains n = true :=
  contains_iff.2 (h.parts.mem_iff.2 (List.mem_append_left _ hn))

end TypeRegistry

namespace Demand

variable {x : CompileContext} {q : Demand} {b : Blueprint} {r s : TypeRegistry}

/-! ### What an answer leads to -/

/-- A reference leads to what its target leads to. -/
theorem ref_reference {u : TypeUse} {name a : String} {e : Entity}
    (h : x.catalog.get? a = some e) :
    (Demand.property u name (.reference a)).ref = (Demand.entity u e).ref := by
  rw [ref, ref, TypeUse.refTo, Catalog.get?_alias h]

/-- The scalar that a demand leads to, under any arrays. -/
def scalar? : Demand → Option ScalarKind
  | .property _ _ t => t.scalarLeaf?
  | .entity .. | .filter _ | .sort _ => none

theorem base_ref_of_scalar {k : ScalarKind} (h : q.scalar? = some k) :
    q.ref.base = k.typeName := by
  cases q with
  | property u name t => exact TypeUse.base_refTo_of_scalarLeaf h
  | entity | filter | sort => exact absurd h (by simp [scalar?])

theorem base_ref_of_blueprint (h : q.blueprint? x = some b) : q.ref.base = b.name := by
  cases builds_of_blueprint h <;> rfl

/-- A served demand leads to a scalar or to a reserved name. -/
theorem contains_of_served (h : Served x r q) (hscalar : q.scalar? = none) :
    r.contains q.ref.base = true := by
  induction h with
  | reserved hb hr =>
    rw [base_ref_of_blueprint hb]
    exact hr.contains
  | scalar => exact absurd hscalar (by simp [scalar?])
  | array _ ih => exact ih hscalar
  | reference ha _ ih =>
    rw [ref_reference ha]
    exact ih rfl

/-! ### What a failure leaves behind -/

/-- **A demand that fails** leaves the registry as it was, or its name under construction; in this
case it is answered when it is made again. -/
theorem answer_error (hr : Consistent x (fun _ => True) r) {f : CompileFailure}
    (h : x.answer q r = (.error f, s)) :
    s = r ∨ r.contains q.ref.base = false ∧ q.ref.base ∈ s.generating ∧
      x.answer q s = (.ok q.ref, s) := by
  -- a demand for a type of its own fails before it takes its name, or while it builds the type
  have hown : ∀ {q : Demand} {b : Blueprint} {s : TypeRegistry}, q.blueprint? x = some b →
      x.answer q r = (.error f, s) →
      s = r ∨ r.contains q.ref.base = false ∧ q.ref.base ∈ s.generating ∧
        x.answer q s = (.ok q.ref, s) := by
    intro q b s hb h
    rw [base_ref_of_blueprint hb]
    by_cases hadm : b.Admissible
    · cases hcontains : r.contains b.name with
      | false =>
        obtain ⟨hreserved, hkept⟩ := answer_of_free hb hadm hr hcontains
        rw [h] at hreserved hkept
        exact .inr ⟨rfl, (hkept f rfl).subset List.mem_cons_self,
          answer_of_reserved hb hadm hreserved⟩
      | true =>
        obtain ⟨t, ht⟩ := hr.exists_reserved hcontains
        by_cases hsame : t = b.signature
        · rw [answer_of_reserved hb hadm (hsame ▸ ht)] at h
          cases h
        · exact .inl (Prod.mk.inj (h.symm.trans (answer_of_conflict hb hadm ht hsame))).2
    · obtain ⟨f', hrefused⟩ := answer_of_not_admissible hb hadm r
      exact .inl (Prod.mk.inj (h.symm.trans hrefused)).2
  cases q with
  | entity | filter | sort => exact hown rfl h
  | property u name t =>
    induction t using PropertyType.induct generalizing s with
    | scalar k =>
      rw [CompileContext.answer, CompileContext.propertyType, propertyType_scalar] at h
      cases h
    | array t ih =>
      rw [answer_array] at h ⊢
      rcases htype : x.answer (.property u name t) r with ⟨e | a, s'⟩
      · obtain ⟨hsame, rfl⟩ := Prod.mk.inj ((bind_error htype).symm.trans h)
        obtain rfl := Except.error.inj hsame
        exact (ih htype).imp_right fun hleft => ⟨hleft.1, hleft.2.1, bind_ok hleft.2.2⟩
      · rw [bind_ok htype] at h
        cases h
    | reference a =>
      cases ha : x.catalog.get? a with
      | none =>
        rw [answer_unknown ha] at h
        exact .inl (Prod.mk.inj h).2.symm
      | some e =>
        rw [answer_reference ha] at h ⊢
        rw [ref_reference ha]
        exact hown rfl h
    | shape fs => exact hown rfl h

end Demand

/-! ### Sessions -/

/-- A demand of a session fails and leaves a name under construction. -/
def Abandons (x : CompileContext) (qs : List Demand) (r : TypeRegistry) (n : String) : Prop :=
  ∃ before q after f, qs = before ++ q :: after ∧
    (x.answer q (x.session before r).2).1 = .error f ∧
    n ∉ (x.session before r).2.generating ∧ n ∈ (x.answer q (x.session before r).2).2.generating

section Session

variable {x : CompileContext} {qs : List Demand} {q : Demand} {r : TypeRegistry}

/-- **What is under construction has been left behind by failures.** -/
theorem mem_generating_session_iff (hr : Consistent x (fun _ => True) r) {n : String} :
    n ∈ (x.session qs r).2.generating ↔ n ∈ r.generating ∨ Abandons x qs r n := by
  induction qs generalizing r with
  | nil =>
    refine ⟨.inl, fun h => h.elim id ?_⟩
    rintro ⟨before, q, after, f, hqs, -⟩
    exact absurd hqs (by simp)
  | cons q qs ih =>
    have hq := answer_serves_all q hr
    rw [CompileContext.session_cons, ih hq.consistent]
    constructor
    · rintro (hn | ⟨before, q', after, f, rfl, hfail⟩)
      · by_cases hold : n ∈ r.generating
        · exact .inl hold
        · cases ha : (x.answer q r).1 with
          | ok t => exact .inl ((hq.ok t ha).1 ▸ hn)
          | error f => exact .inr ⟨[], q, qs, f, rfl, ha, hold, hn⟩
      · exact .inr ⟨q :: before, q', after, f, rfl, hfail⟩
    · rintro (hn | ⟨before, q', after, f, hqs, hfail⟩)
      · exact .inl (hq.kept.subset hn)
      · cases before with
        | nil =>
          obtain ⟨rfl, rfl⟩ := List.cons.inj hqs
          exact .inl hfail.2.2
        | cons q'' before =>
          obtain ⟨rfl, rfl⟩ := List.cons.inj hqs
          exact .inr ⟨before, q', after, f, rfl, hfail⟩

end Session

/-- **Answers lead to finished types, except to names that a failure has left behind.** After any
demands, a demand that is answered leads to a shared scalar or to a name in use, and to a finished
type unless the name is under construction. A demand that fails either changes nothing and fails
again, or it takes its free name, and when it is made again it is answered with the name. The names
under construction are those that some failure has left so; no later demand finishes them. -/
theorem answered_unless_abandoned (x : CompileContext) (qs : List Demand) (q : Demand) :
    let r := (x.session qs .empty).2
    let s := (x.answer q r).2
    (∀ t, (x.answer q r).1 = .ok t →
      t = q.ref ∧ s.generating = r.generating ∧
        (∀ k, q.scalar? = some k → t.base = k.typeName) ∧
        (q.scalar? = none → s.contains t.base = true ∧
          ((∃ d, s.Holds t.base d) ↔ t.base ∉ r.generating))) ∧
    (∀ f, (x.answer q r).1 = .error f →
      s = r ∧ x.answer q s = (.error f, s) ∨
      r.contains q.ref.base = false ∧ q.ref.base ∈ s.generating ∧ x.answer q s = (.ok q.ref, s)) ∧
    (∀ n, n ∈ r.generating ↔ Abandons x qs .empty n) ∧
    ∀ n ∈ r.generating, ∀ qs', n ∈ (x.session qs' r).2.generating ∧
      ¬ ∃ d, (x.session qs' r).2.Holds n d := by
  intro r s
  have hr := session_consistent x qs
  have hq := answer_serves_all q hr
  refine ⟨fun t ht => ?_, fun f hf => ?_, fun n => ?_, fun n hn qs' => ?_⟩
  · obtain ⟨hgen, rfl, hserved⟩ := hq.ok t ht
    refine ⟨rfl, hgen, fun k => Demand.base_ref_of_scalar, fun hscalar => ?_⟩
    have hcontains := Demand.contains_of_served hserved hscalar
    exact ⟨hcontains, hgen ▸ hq.consistent.parts.exists_holds_iff_notMem hcontains⟩
  · have hrun : x.answer q r = (.error f, s) := Prod.ext hf rfl
    refine (Demand.answer_error hr hrun).imp_left fun hsame => ⟨hsame, ?_⟩
    rw [hsame] at hrun ⊢
    exact hrun
  · rw [mem_generating_session_iff .empty]
    exact or_iff_right List.not_mem_nil
  · have hlater := session_attended_all qs' hr
    have hkept := hlater.kept.subset hn
    have hparts := hlater.consistent.parts
    exact ⟨hkept, fun hholds =>
      (hparts.exists_holds_iff_notMem (hparts.contains_of_generating hkept)).1 hholds hkept⟩

/-- A part has a key that is no name, so that its type is never built. It is refused once. -/
theorem answered_unless_abandoned_part :
    let e : Entity := { Entity.bare "part" with
      properties := [("bad-key", .plain (.scalar .string))] }
    let x : CompileContext := ⟨⟨[e]⟩, .empty⟩
    let q := Demand.entity (.output .publicType) e
    (x.answer q .empty).1 = .error (.refused (.invalidName "bad-key")) ∧
      x.answer q (x.answer q .empty).2 = (.ok (.named "part"), (x.answer q .empty).2) ∧
      ∀ qs, ¬ ∃ d, (x.session qs (x.answer q .empty).2).2.Holds "part" d := by
  intro e x q
  have hfail : (x.answer q .empty).1 = .error (.refused (.invalidName "bad-key")) := by
    decide +kernel
  have hleft : "part" ∈ (x.session [q] .empty).2.generating := by decide +kernel
  obtain ⟨-, herror, -, -⟩ := answered_unless_abandoned x [] q
  obtain ⟨-, -, -, hlater⟩ := answered_unless_abandoned x [q] q
  refine ⟨hfail, ?_, fun qs => (hlater "part" hleft qs).2⟩
  rcases herror _ hfail with ⟨hsame, -⟩ | ⟨-, -, hagain⟩
  · have hempty : (x.session [q] .empty).2.generating = [] := congrArg TypeRegistry.generating hsame
    rw [hempty] at hleft
    exact absurd hleft List.not_mem_nil
  · exact hagain

end EntityGraph
