import EntityGraph.Proofs.Compile.Answer
import EntityGraph.Proofs.Compile.Settled

/-!
Sessions: demands made one after the other, from the registry without names. After every demand
each reserved name is in exactly one place. When all demands have been answered, the registry is
at rest and closed: whatever a finished type refers to is shared or finished, and of its kind.
-/

namespace EntityGraph

open Compile

/-! ### What a session leaves behind -/

/-- What demands made one after the other leave behind. -/
structure Attended (x : CompileContext) (P : Demand → Prop) (qs : List Demand)
    (r s : TypeRegistry) (as : List (Except CompileFailure TypeRef)) : Prop where
  /-- The registry stays consistent, whatever is answered. -/
  consistent : Consistent x P s
  /-- What is reserved stays reserved. -/
  within : r.Within s
  /-- What is under construction stays so. -/
  kept : r.generating <:+ s.generating
  /-- When all demands have been answered, each of them is served. -/
  ok : (∀ a ∈ as, a.isOk = true) →
    s.generating = r.generating ∧ as = qs.map (fun q => .ok q.ref) ∧ ∀ q ∈ qs, Served x s q

section Session

variable {x : CompileContext} {P : Demand → Prop} {qs : List Demand} {r : TypeRegistry}

theorem session_attended (hclosed : ∀ q q', P q → Leads x q q' → P q') (hqs : ∀ q ∈ qs, P q)
    (hr : Consistent x P r) :
    Attended x P qs r (x.session qs r).2 (x.session qs r).1 := by
  induction qs generalizing r with
  | nil => exact ⟨hr, .refl r, List.suffix_rfl, fun _ => ⟨rfl, rfl, List.forall_mem_nil _⟩⟩
  | cons q qs ih =>
    rw [CompileContext.session_cons]
    have hq := answer_serves (fun _ h => h) hclosed (hqs q List.mem_cons_self) hr
    have hrest := ih (fun q' hq' => hqs q' (List.mem_cons_of_mem _ hq')) hq.consistent
    refine ⟨hrest.consistent, hq.within.trans hrest.within, hq.kept.trans hrest.kept,
      fun hall => ?_⟩
    obtain ⟨hhead, htail⟩ := List.forall_mem_cons.1 hall
    obtain ⟨hgen, hanswers, hserved⟩ := hrest.ok htail
    cases ha : (x.answer q r).1 with
    | error e =>
      rw [ha] at hhead
      exact absurd hhead (by simp [Except.isOk, Except.toBool])
    | ok t =>
      obtain ⟨hsame, ht, hs⟩ := hq.ok t ha
      refine ⟨hgen.trans hsame, ?_, List.forall_mem_cons.2 ⟨hs.mono hrest.within, hserved⟩⟩
      rw [hanswers, ht, List.map_cons]

/-- Whatever is asked for, a session keeps what is there and leaves a consistent registry. -/
theorem session_attended_all (qs : List Demand) (hr : Consistent x (fun _ => True) r) :
    Attended x (fun _ => True) qs r (x.session qs r).2 (x.session qs r).1 :=
  session_attended (fun _ _ _ _ => trivial) (fun _ _ => trivial) hr

/-- Whatever has been asked for, the registry stays consistent. -/
theorem session_consistent (x : CompileContext) (qs : List Demand) :
    Consistent x (fun _ => True) (x.session qs .empty).2 :=
  (session_attended_all qs .empty).consistent

/-- A session serves the demands that it meets. -/
theorem session_met (x : CompileContext) (qs : List Demand) :
    Attended x (Met x qs) qs .empty (x.session qs .empty).2 (x.session qs .empty).1 :=
  session_attended (fun _ _ h hl => h.leads hl) (fun _ hq => Met.of_mem hq) .empty

/-- After a session with all demands answered, the registry is at rest. -/
theorem session_settled (hok : ∀ a ∈ (x.session qs .empty).1, a.isOk = true) :
    Settled x (Met x qs) (x.session qs .empty).2 :=
  ⟨(session_met x qs).consistent, ((session_met x qs).ok hok).1⟩

/-- After a session with all demands answered, every demand that is met is served. -/
theorem session_served (hok : ∀ a ∈ (x.session qs .empty).1, a.isOk = true) {q : Demand}
    (hq : Met x qs q) : Served x (x.session qs .empty).2 q :=
  (session_settled hok).served_of_met ((session_met x qs).ok hok).2.2 hq

end Session

/-! ### What fields refer to -/

namespace Demand

variable {x : CompileContext} {q : Demand} {b : Blueprint}

/-- An input without members refers to shared inputs and to itself. -/
theorem base_of_input (h : q.blueprint? x = some b) (hused : b.signature.use? = none)
    {f : FieldOutline} (hf : f ∈ b.signature.outline b.name) :
    f.2.1.base ∈ ["StringFilter", "FloatFilter", "BooleanFilter", "DateTimeFilter", "IDFilter",
      "SortDirection"] ∨ f.2.1.base = b.name := by
  cases builds_of_blueprint h with
  | entity | shape => exact absurd hused (by simp)
  | filter e =>
    rcases List.mem_append.1 hf with hf | hf
    · obtain ⟨p, hp, rfl⟩ := List.mem_map.1 hf
      refine .inl ?_
      rcases List.mem_cons.1 hp with rfl | hp
      · simp [idFilterInput, TypeRef.base]
      · obtain ⟨p', -, hp'⟩ := List.mem_filterMap.1 hp
        obtain ⟨k, -, rfl⟩ := Option.map_eq_some_iff.1 hp'
        cases k <;> simp [operatorInputName, TypeRef.base]
    · refine .inr ?_
      rcases List.mem_pair.1 hf with rfl | rfl <;> rfl
  | sort e =>
    obtain ⟨k, -, rfl⟩ := List.mem_map.1 hf
    exact .inl (by simp [sortDirectionEnum, TypeRef.base])

/-- The fields of a generated object take no arguments. -/
theorem arguments_of_object (h : q.blueprint? x = some b) {o : ObjectType}
    (ho : b.definition = .object o) : ∀ f ∈ o.fields, f.arguments = [] := by
  have hobject : ∀ (u : TypeUse) (name : String) (d : Option String) (before : List FieldDef)
      (ms : List (String × ProjectedField)), (∀ f ∈ before, f.arguments = []) →
      u.typeDef name d (before ++ u.fieldDefs name ms) = .object o →
      ∀ f ∈ o.fields, f.arguments = [] := by
    intro u name d before ms hbefore ho f hf
    cases u with
    | input => exact nomatch ho
    | output o' =>
      obtain rfl := TypeDef.object.inj ho
      rcases List.mem_append.1 hf with hf | hf
      · exact hbefore f hf
      · obtain ⟨m, -, rfl⟩ := List.mem_map.1 hf
        simp
  cases builds_of_blueprint h with
  | entity u e =>
    exact hobject u _ _ [CompileContext.idFieldDef] _ (List.forall_mem_singleton.2 rfl) ho
  | shape u name fs => exact hobject u _ _ [] _ (List.forall_mem_nil _) ho
  | filter | sort => exact nomatch ho

end Demand

namespace Settled

variable {x : CompileContext} {P : Demand → Prop} {r : TypeRegistry} {q : Demand} {b : Blueprint}

theorem mem_objects_of_holds {name : String} {d : TypeDef} (h : r.Holds name d)
    (hd : d.Generated true) : name ∈ Fields.keys r.objects := by
  cases d with
  | object o => exact List.mem_map_of_mem (Fields.mem_of_get? h)
  | input => exact absurd hd (by simp [TypeDef.Generated])
  | scalar | enum => exact absurd h (by simp [TypeRegistry.Holds])

theorem mem_inputs_of_holds {name : String} {d : TypeDef} (h : r.Holds name d)
    (hd : d.Generated false) : name ∈ Fields.keys r.inputs := by
  cases d with
  | input i => exact List.mem_map_of_mem (Fields.mem_of_get? h)
  | object => exact absurd hd (by simp [TypeDef.Generated])
  | scalar | enum => exact absurd h (by simp [TypeRegistry.Holds])

/-- A field of a type with members refers to a scalar or to a finished type of its kind. -/
theorem base_of_member (h : Settled x P r) (hdone : CarriedOut x r q b) {u : TypeUse}
    (hu : b.signature.use? = some u) {f : FieldOutline}
    (hf : f ∈ b.signature.outline b.name) :
    f.2.1.base ∈ ["String", "Float", "Boolean", "ID", "DateTime"] ∨
      ∃ d, r.Holds f.2.1.base d ∧ d.Generated u.isOutput := by
  rcases Signature.mem_outline hu hf with hid | ⟨m, hm, href⟩
  · rw [hid]
    exact .inl (by simp [TypeRef.base])
  · rw [href]
    have hserved := hdone.served _ ((Demand.leads_iff hdone.blueprint).2 ⟨u, m, hu, hm, rfl⟩)
    refine (h.base_refTo hserved).imp_left fun hscalar => ?_
    obtain ⟨k, hk⟩ := hscalar
    rw [hk]
    cases k <;>
      simp [ScalarKind.typeName, stringScalar, floatScalar, booleanScalar, dateTimeScalar]

/-- Finished objects refer to scalars and to finished objects. -/
theorem objects_closed (h : Settled x P r) :
    ∀ p ∈ r.objects, ∀ f ∈ p.2.fields, f.arguments = [] ∧
      (f.type.base ∈ ["String", "Float", "Boolean", "ID", "DateTime"] ∨
        f.type.base ∈ Fields.keys r.objects) := by
  intro p hp f hf
  obtain ⟨q, b, -, hdone, -, hdef⟩ := h.objects p hp
  refine ⟨Demand.arguments_of_object hdone.blueprint hdef f hf, ?_⟩
  obtain ⟨houtline, hkind⟩ := Demand.outline_of_blueprint hdone.blueprint
  rw [hdef] at houtline hkind
  have hmem : f.outline ∈ b.signature.outline b.name := houtline ▸ List.mem_map_of_mem hf
  cases hu : b.signature.use? with
  | none =>
    -- only inputs are without members
    cases hs : b.signature <;> simp [hs, Signature.use?] at hu <;>
      simp [hs, Signature.isObject, TypeDef.Generated] at hkind
  | some u =>
    refine (h.base_of_member hdone hu hmem).imp_right fun hheld => ?_
    obtain ⟨d, hd, hgen⟩ := hheld
    rw [← Signature.isObject_of_use? hu, show b.signature.isObject = true from hkind] at hgen
    exact mem_objects_of_holds hd hgen

/-- Finished inputs refer to scalars, to shared inputs and to finished inputs. -/
theorem inputs_closed (h : Settled x P r) :
    ∀ p ∈ r.inputs, ∀ f ∈ p.2.fields,
      f.type.base ∈ ["String", "Float", "Boolean", "ID", "DateTime"] ∨
      f.type.base ∈ ["StringFilter", "FloatFilter", "BooleanFilter", "DateTimeFilter",
        "IDFilter", "SortDirection"] ∨
      f.type.base ∈ Fields.keys r.inputs := by
  intro p hp f hf
  obtain ⟨q, b, -, hdone, hname, hdef⟩ := h.inputs p hp
  obtain ⟨houtline, hkind⟩ := Demand.outline_of_blueprint hdone.blueprint
  rw [hdef] at houtline hkind
  have hmem : f.outline ∈ b.signature.outline b.name := houtline ▸ List.mem_map_of_mem hf
  cases hu : b.signature.use? with
  | none =>
    refine .inr ((Demand.base_of_input hdone.blueprint hu hmem).imp_right fun hself => ?_)
    rw [show f.type.base = p.1 from hself.trans hname]
    exact List.mem_map_of_mem hp
  | some u =>
    refine (h.base_of_member hdone hu hmem).imp_right fun hheld => .inr ?_
    obtain ⟨d, hd, hgen⟩ := hheld
    rw [← Signature.isObject_of_use? hu, show b.signature.isObject = false from hkind] at hgen
    exact mem_inputs_of_holds hd hgen

end Settled

/-- **Sessions keep the registry in order, and close it.** After any demands, answered or not, the
reserved names are the disjoint union of the names under construction, the finished objects and
the finished inputs. When all of them have been answered, nothing is under construction, and every
type that a finished object or input refers to is shared or a finished type of its kind. -/
theorem session_closed (x : CompileContext) (qs : List Demand) :
    (x.session qs .empty).2.Partitioned ∧
      ((∀ a ∈ (x.session qs .empty).1, a.isOk = true) →
        (x.session qs .empty).2.generating = [] ∧
        (∀ p ∈ (x.session qs .empty).2.objects, ∀ f ∈ p.2.fields, f.arguments = [] ∧
          (f.type.base ∈ ["String", "Float", "Boolean", "ID", "DateTime"] ∨
            f.type.base ∈ Fields.keys (x.session qs .empty).2.objects)) ∧
        (∀ p ∈ (x.session qs .empty).2.inputs, ∀ f ∈ p.2.fields,
          f.type.base ∈ ["String", "Float", "Boolean", "ID", "DateTime"] ∨
          f.type.base ∈ ["StringFilter", "FloatFilter", "BooleanFilter", "DateTimeFilter",
            "IDFilter", "SortDirection"] ∨
          f.type.base ∈ Fields.keys (x.session qs .empty).2.inputs)) := by
  refine ⟨(session_met x qs).consistent.parts, fun hok => ?_⟩
  have hsettled := session_settled hok
  exact ⟨hsettled.rest, hsettled.objects_closed, hsettled.inputs_closed⟩

theorem session_closed_archive :
    let qs := [Demand.entity (.output .publicType) folderEntity, .sort fileEntity,
      .entity .input fileEntity]
    (∀ a ∈ (archiveContext.session qs .empty).1, a.isOk = true) ∧
      (archiveContext.session qs .empty).2.generating = [] := by
  intro qs
  have hok : ∀ a ∈ (archiveContext.session qs .empty).1, a.isOk = true := by decide +kernel
  exact ⟨hok, ((session_closed archiveContext qs).2 hok).1⟩

end EntityGraph
