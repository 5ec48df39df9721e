import EntityGraph.Proofs.Compile.Invariant

/-!
What a step of a compilation does at a consistent registry. It leaves a consistent registry with
nothing less reserved. When it succeeds, what is under construction is what was before, and its
answer is as promised. When it fails, the reason can be told from demands alone: a demand that it
serves is faulty in itself, or asks for a name that another demand has taken for something else.
-/

namespace EntityGraph

open Compile

/-! ### Faults -/

/-- Why serving demands of the second kind may fail at a registry that serves demands of the
first kind. -/
inductive Fault (x : CompileContext) (P Q : Demand → Prop) : CompileFailure → Prop
  /-- A chain of references exceeds its bound. -/
  | chain : Fault x P Q .chainTooLong
  /-- A name that is checked for a demand is not valid. -/
  | invalid {q : Demand} {b : Blueprint} {n : String} :
      Q q → q.blueprint? x = some b → n ∈ b.signature.checkedNames b.name →
      Name.Valid n = false → Fault x P Q (.refused (.invalidName n))
  /-- A type would have two fields of one name. -/
  | repeated {q : Demand} {b : Blueprint} {f : String} :
      Q q → q.blueprint? x = some b → ¬((b.signature.outline b.name).map Prod.fst).Nodup →
      Fault x P Q (.repeatedField b.name f)
  /-- A shape has no fields. -/
  | vacant {u : TypeUse} {name : String} :
      Q (.property u name (.shape [])) → Fault x P Q (.refused (.emptyShape name))
  /-- A reference has no target. -/
  | unknown {u : TypeUse} {name a : String} :
      Q (.property u name (.reference a)) → x.catalog.get? a = none →
      Fault x P Q (.refused (.unknownReference name a))
  /-- Two demands ask for different types of one name. -/
  | conflict {q q' : Demand} {b b' : Blueprint} :
      Q q → q.blueprint? x = some b → P q' → q'.blueprint? x = some b' → b'.name = b.name →
      b'.signature ≠ b.signature → Fault x P Q (.refused (.conflict b.name))

/-! ### Steps -/

/-- **What a step does at a registry**: it succeeds with a result as described, or it fails for a
fault. -/
structure Serves (x : CompileContext) (P Q : Demand → Prop) {α : Type} (c : Compile α)
    (post : α → TypeRegistry → Prop) (r : TypeRegistry) : Prop where
  /-- The registry stays consistent. -/
  consistent : Consistent x P (c r).2
  /-- What is reserved stays reserved. -/
  within : r.Within (c r).2
  /-- What is under construction stays so; a failure may leave more behind. -/
  kept : r.generating <:+ (c r).2.generating
  /-- Success leaves under construction what was under construction. -/
  ok : ∀ a, (c r).1 = .ok a → (c r).2.generating = r.generating ∧ post a (c r).2
  /-- Failure has a reason. -/
  error : ∀ e, (c r).1 = .error e → Fault x P Q e

namespace Serves

variable {x : CompileContext} {P Q : Demand → Prop} {α β : Type} {r : TypeRegistry}

theorem of_ok {c : Compile α} {post : α → TypeRegistry → Prop} {a : α} (h : c r = (.ok a, r))
    (hr : Consistent x P r) (hpost : post a r) : Serves x P Q c post r := by
  have hkept : r.generating <:+ (c r).2.generating := by simpa only [h] using List.suffix_rfl
  refine ⟨?_, ?_, hkept, ?_, ?_⟩ <;> rw [h]
  · exact hr
  · exact .refl r
  · intro a' ha'
    obtain rfl : a = a' := Except.ok.inj ha'
    exact ⟨rfl, hpost⟩
  · exact fun e he => absurd he (by simp)

theorem of_error {c : Compile α} {post : α → TypeRegistry → Prop} {e : CompileFailure}
    (h : c r = (.error e, r)) (hr : Consistent x P r) (hfault : Fault x P Q e) :
    Serves x P Q c post r := by
  have hkept : r.generating <:+ (c r).2.generating := by simpa only [h] using List.suffix_rfl
  refine ⟨?_, ?_, hkept, ?_, ?_⟩ <;> rw [h]
  · exact hr
  · exact .refl r
  · exact fun a ha => absurd ha (by simp)
  · intro e' he'
    obtain rfl : e = e' := Except.error.inj he'
    exact hfault

theorem pure {post : α → TypeRegistry → Prop} {a : α} (hr : Consistent x P r) (h : post a r) :
    Serves x P Q (Pure.pure a : Compile α) post r := of_ok rfl hr h

theorem weaken {c : Compile α} {post post' : α → TypeRegistry → Prop}
    (h : Serves x P Q c post r)
    (hpost : ∀ a, r.Within (c r).2 → post a (c r).2 → post' a (c r).2) :
    Serves x P Q c post' r :=
  ⟨h.consistent, h.within, h.kept,
    fun a ha => ⟨(h.ok a ha).1, hpost a h.within (h.ok a ha).2⟩, h.error⟩

theorem bind {c : Compile α} {f : α → Compile β} {mid : α → TypeRegistry → Prop}
    {post : β → TypeRegistry → Prop} (h : Serves x P Q c mid r)
    (hf : ∀ a s, Consistent x P s → r.Within s → mid a s → Serves x P Q (f a) post s) :
    Serves x P Q (c >>= f) post r := by
  obtain ⟨hcons, hwithin, hkept, hok, herror⟩ := h
  rcases hc : c r with ⟨e | a, s⟩
  · rw [hc] at hcons hwithin hkept herror
    have hrun := bind_error (f := f) hc
    refine ⟨?_, ?_, ?_, ?_, ?_⟩ <;> rw [hrun]
    · exact hcons
    · exact hwithin
    · exact hkept
    · exact fun a ha => absurd ha (by simp)
    · exact fun e' he' => herror e' (by simpa using he')
  · rw [hc] at hcons hwithin hkept hok
    obtain ⟨hgen, hmid⟩ := hok a rfl
    have h' := hf a s hcons hwithin hmid
    have hrun := bind_ok (f := f) hc
    refine ⟨?_, ?_, ?_, ?_, ?_⟩ <;> rw [hrun]
    · exact h'.consistent
    · exact hwithin.trans h'.within
    · exact hkept.trans h'.kept
    · exact fun b hb => ⟨(h'.ok b hb).1.trans hgen, (h'.ok b hb).2⟩
    · exact h'.error

/-! ### Names and fields -/

theorem checkName {name : String} (hr : Consistent x P r)
    (h : Name.Valid name = false → Fault x P Q (.refused (.invalidName name))) :
    Serves x P Q (checkName name) (fun _ _ => Name.Valid name = true) r := by
  cases hn : Name.Valid name with
  | true => exact of_ok (checkName_of_valid hn r) hr rfl
  | false => exact of_error (checkName_of_not_valid hn r) hr (h hn)

theorem addField {typeName : String} {name : α → String} {fields : List α} {f : α}
    (hr : Consistent x P r)
    (h : name f ∈ fields.map name → Fault x P Q (.repeatedField typeName (name f))) :
    Serves x P Q (addField typeName name fields f)
      (fun fs _ => name f ∉ fields.map name ∧ fs = fields ++ [f]) r := by
  by_cases hf : name f ∈ fields.map name
  · exact of_error (addField_of_mem hf r) hr (h hf)
  · exact of_ok (addField_of_notMem hf r) hr ⟨hf, rfl⟩

theorem addFields {typeName : String} {name : α → String} {before fs : List α}
    (hr : Consistent x P r) (hbefore : (before.map name).Nodup)
    (h : ∀ f, ¬((before ++ fs).map name).Nodup → Fault x P Q (.repeatedField typeName f)) :
    Serves x P Q (addFields typeName name before fs)
      (fun all _ => ((before ++ fs).map name).Nodup ∧ all = before ++ fs) r := by
  rcases addFields_cases hbefore typeName fs r with ⟨hnodup, hadded⟩ | ⟨hnodup, f, hadded⟩
  · exact of_ok hadded hr ⟨hnodup, rfl⟩
  · exact of_error hadded hr (h f hnodup)

/-! ### Reserving a name -/

/-- A step that builds the type of a demand on top of what is under construction, and finishes
it, leaves the rest under construction. A step that fails leaves all of it. -/
theorem finish {q : Demand} {b : Blueprint} {body : Compile β}
    {g : β → TypeRegistry → TypeRegistry} {rest : List String} (hP : P q)
    (hb : q.blueprint? x = some b) (hgen : r.generating = b.name :: rest)
    (h : Serves x P Q body
      (fun a s => g a s = s.finish b.name b.definition ∧ CarriedOut x s q b) r) :
    Consistent x P ((body >>= fun a => change (g a)) r).2 ∧
      r.Within ((body >>= fun a => change (g a)) r).2 ∧
      (∀ a, ((body >>= fun a => change (g a)) r).1 = .ok a →
        ((body >>= fun a => change (g a)) r).2.generating = rest) ∧
      ∀ e, ((body >>= fun a => change (g a)) r).1 = .error e → Fault x P Q e ∧
        b.name :: rest <:+ ((body >>= fun a => change (g a)) r).2.generating := by
  obtain ⟨hcons, hwithin, hkept, hok, herror⟩ := h
  rcases hrun : body r with ⟨e | a, s⟩
  · rw [hrun] at hcons hwithin hkept herror
    rw [bind_error hrun, ← hgen]
    exact ⟨hcons, hwithin, fun a ha => absurd ha (by simp),
      fun e' he' => ⟨herror e' (by simpa using he'), hkept⟩⟩
  · rw [hrun] at hcons hwithin hok
    obtain ⟨hsame, hfinish, hdone⟩ := hok a rfl
    have htop : s.generating = b.name :: rest := hsame.trans hgen
    have hmem : b.name ∈ s.generating := by
      rw [htop]
      exact List.mem_cons_self
    rw [bind_ok hrun, change_apply, hfinish]
    refine ⟨hcons.finish hP hdone hmem, hwithin.trans (Consistent.within_finish s _ _),
      fun _ _ => ?_, fun e he => absurd he (by simp)⟩
    rw [Consistent.generating_finish s _ (Demand.outline_of_blueprint hb).2]
    exact hcons.parts.others_of_cons htop

/-- **A name is built once**: a step that finishes the type of a demand runs where the name is
free, and not where it is reserved for the same. -/
theorem unlessReserved {q : Demand} {b : Blueprint} {body : Compile β}
    {g : β → TypeRegistry → TypeRegistry} (hr : Consistent x P r) (hQ : Q q) (hP : P q)
    (hb : q.blueprint? x = some b)
    (hbody : ∀ t, Consistent x P t → t.Reserved b.name b.signature →
      Serves x P Q body
        (fun a s => g a s = s.finish b.name b.definition ∧ CarriedOut x s q b) t) :
    Serves x P Q (unlessReserved b.name b.signature (body >>= fun a => change (g a)))
      (fun _ s => s.Reserved b.name b.signature) r := by
  cases hget : Fields.get? r.fingerprints b.name with
  | some f =>
    by_cases hf : f = b.signature.fingerprint
    · subst hf
      exact of_ok (unlessReserved_same hget _) hr hget
    · -- the name has been taken for a demand with another fingerprint
      obtain ⟨q', b', hP', hb', hname, rfl⟩ := hr.reserved _ _ hget
      refine of_error (unlessReserved_other hget hf _) hr (.conflict hQ hb hP' hb' hname ?_)
      exact fun hs => hf (congrArg Signature.fingerprint hs)
  | none =>
    have hfree := TypeRegistry.within_enter hget b.signature.fingerprint
    have hreserved := r.reserved_enter b.name b.signature
    obtain ⟨hcons, hwithin, hok, herror⟩ :=
      finish hP hb rfl (hbody _ (hr.enter hP hb hget) hreserved)
    refine ⟨?_, ?_, ?_, ?_, ?_⟩ <;> rw [unlessReserved_free hget]
    · exact hcons
    · exact hfree.trans hwithin
    · rcases hrun : (body >>= fun a => change (g a)) (r.enter b.name b.signature.fingerprint) with
        ⟨e | a, s⟩
      · rw [hrun] at herror
        exact (List.suffix_cons _ _).trans (herror e rfl).2
      · rw [hrun] at hok
        exact hok a rfl ▸ List.suffix_rfl
    · exact fun a ha => ⟨hok a ha, hwithin _ _ hreserved⟩
    · exact fun e he => (herror e he).1

end Serves

end EntityGraph
