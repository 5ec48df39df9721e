import EntityGraph.Proofs.Compile.Chains
import EntityGraph.Proofs.Compile.Reservation

/-!
The calls of a session in the order they are made: every demand of the session, and after it the
calls that it makes in turn, each with the registry that it finds. What a call has reserved is
reserved at every later call, whether this is made by the call itself, by one of those around it, or
by a later demand.
-/

namespace EntityGraph

open Compile

/-! ### Members one by one -/

namespace Compile

variable {c : Catalog} {u : TypeUse} {enter : Entity → Compile String} {name : String}

/-- The first member is on its own, and the others come after it. -/
theorem memberFields_cons (before : List FieldDef) (m : String × ProjectedField)
    (ms : List (String × ProjectedField)) :
    memberFields c u enter name before (m :: ms) =
      memberFields c u enter name before [m] >>= fun before =>
        memberFields c u enter name before ms := by
  simp only [memberFields, Compile.bind_assoc]
  rfl

/-- A single member leaves the registry as its type does. -/
theorem memberFields_single {m : String × ProjectedField} (h : Name.Valid m.1 = true)
    (before : List FieldDef) (r : TypeRegistry) :
    (memberFields c u enter name before [m] r).2 =
      (propertyType c u enter (name ++ m.1) m.2.type r).2 := by
  rw [memberFields, bind_ok (checkName_of_valid h r)]
  rcases htype : propertyType c u enter (name ++ m.1) m.2.type r with ⟨e | t, s⟩
  · rw [bind_error htype]
  · rw [bind_ok htype]
    by_cases hnew : m.1 ∈ before.map FieldDef.name
    · rw [bind_error (addField_of_mem (by simpa using hnew) s)]
    · rw [bind_ok (addField_of_notMem (by simpa using hnew) s)]
      rfl

theorem valid_of_memberFields {m : String × ProjectedField} {before defs : List FieldDef}
    {r s : TypeRegistry} (h : memberFields c u enter name before [m] r = (.ok defs, s)) :
    Name.Valid m.1 = true := by
  cases hvalid : Name.Valid m.1 with
  | true => rfl
  | false =>
    rw [memberFields, bind_error (checkName_of_not_valid hvalid r)] at h
    cases h

end Compile

/-! ### Calls -/

namespace CompileContext

variable (x : CompileContext)

/-- The calls for the types of members, one after the other. They end with a member that fails. -/
def memberCalls (u : TypeUse) (name : String) (before : List FieldDef) :
    List (String × ProjectedField) → TypeRegistry → List (Demand × TypeRegistry)
  | [], _ => []
  | m :: ms, r =>
    if Name.Valid m.1 then
      (.property u (name ++ m.1) m.2.type, r) ::
        match memberFields x.catalog u (x.entityType u) name before [m] r with
        | (.ok before, s) => memberCalls u name before ms s
        | (.error _, _) => []
    else []

/-- The calls of a type with members: there are some only where its name is valid and free. -/
def typeCalls (u : TypeUse) (name : String) (s : Signature) (before : List FieldDef)
    (ms : List (String × ProjectedField)) (r : TypeRegistry) : List (Demand × TypeRegistry) :=
  if Name.Valid name = true ∧ r.contains name = false then
    x.memberCalls u name before ms (r.enter name s.fingerprint)
  else []

/-- The calls that a call makes itself. -/
def directCalls : Demand × TypeRegistry → List (Demand × TypeRegistry)
  | (.entity u e, r) =>
    x.typeCalls u (u.typeName e.aliasName) (u.entitySignature e.aliasName (x.fieldsOf u e))
      [idFieldDef] (entityMembers (x.fieldsOf u e)) r
  | (.property u name (.shape fs), r) =>
    x.typeCalls u name (u.shapeSignature fs) [] (shapeMembers fs) r
  | (.property u name (.array t), r) => [(.property u name t, r)]
  | (.property u _ (.reference a), r) =>
    (x.catalog.get? a).toList.map fun e => (.entity u e, r)
  | (.property _ _ (.scalar _), _) | (.filter _, _) | (.sort _, _) => []

theorem directCalls_empty (u : TypeUse) (name : String) (r : TypeRegistry) :
    x.directCalls (.property u name (.shape []), r) = [] := by
  rw [directCalls, typeCalls]
  split <;> rfl

variable {x} {u : TypeUse} {name : String} {p q : Demand × TypeRegistry}

theorem mem_memberCalls_iff {before : List FieldDef} {ms : List (String × ProjectedField)}
    {r : TypeRegistry} :
    q ∈ x.memberCalls u name before ms r ↔ ∃ front m back defs s, ms = front ++ m :: back ∧
      memberFields x.catalog u (x.entityType u) name before front r = (.ok defs, s) ∧
      Name.Valid m.1 = true ∧ q = (.property u (name ++ m.1) m.2.type, s) := by
  induction ms generalizing before r with
  | nil => simp [memberCalls]
  | cons m ms ih =>
    unfold memberCalls
    constructor
    · intro hq
      split at hq
      · rename_i hvalid
        rcases List.mem_cons.1 hq with rfl | hq
        · exact ⟨[], m, ms, before, r, rfl, rfl, hvalid, rfl⟩
        · split at hq
          · rename_i before' s hrun
            obtain ⟨front, m', back, defs, t, rfl, hfront, hvalid', rfl⟩ := ih.1 hq
            refine ⟨m :: front, m', back, defs, t, rfl, ?_, hvalid', rfl⟩
            rw [memberFields_cons, bind_ok hrun]
            exact hfront
          · exact absurd hq List.not_mem_nil
      · exact absurd hq List.not_mem_nil
    · rintro ⟨front, m', back, defs, t, hms, hfront, hvalid', rfl⟩
      cases front with
      | nil =>
        obtain ⟨rfl, rfl⟩ := List.cons.inj hms
        obtain ⟨-, rfl⟩ := Prod.mk.inj hfront
        rw [if_pos hvalid']
        exact List.mem_cons_self
      | cons m'' front =>
        obtain ⟨rfl, rfl⟩ := List.cons.inj hms
        rw [memberFields_cons] at hfront
        obtain ⟨before', s, hrun, hrest⟩ := exists_ok_of_bind hfront
        rw [if_pos (valid_of_memberFields hrun), hrun]
        exact List.mem_cons_of_mem _ (ih.2 ⟨front, m', back, defs, t, rfl, hrest, hvalid', rfl⟩)

theorem mem_typeCalls_iff {sig : Signature} {before : List FieldDef}
    {ms : List (String × ProjectedField)} {r : TypeRegistry} :
    q ∈ x.typeCalls u name sig before ms r ↔
      Name.Valid name = true ∧ r.contains name = false ∧
      ∃ front m back defs s, ms = front ++ m :: back ∧
        memberFields x.catalog u (x.entityType u) name before front
          (r.enter name sig.fingerprint) = (.ok defs, s) ∧
        Name.Valid m.1 = true ∧ q = (.property u (name ++ m.1) m.2.type, s) := by
  unfold typeCalls
  split
  · rename_i hfree
    rw [mem_memberCalls_iff]
    exact ⟨fun h => ⟨hfree.1, hfree.2, h⟩, fun h => h.2.2⟩
  · rename_i hfree
    exact iff_of_false List.not_mem_nil fun h => hfree ⟨h.1, h.2.1⟩

/-- **The calls that a call makes** are those in the relation. -/
theorem mem_directCalls_iff : q ∈ x.directCalls p ↔ Invokes x p q := by
  obtain ⟨d, r⟩ := p
  cases d with
  | filter | sort => exact iff_of_false List.not_mem_nil fun h => by cases h
  | entity u e =>
    rw [directCalls, mem_typeCalls_iff]
    constructor
    · rintro ⟨hvalid, hfree, front, m, back, defs, s, hms, hrun, hkey, rfl⟩
      exact .of_entityMembers hvalid hfree hms hrun hkey
    · intro h
      cases h with
      | @field _ _ before after k f defs _ s hvalid hfree hfields hk hrun hkey =>
        rw [entityFields_eq] at hrun
        refine ⟨hvalid, hfree, entityMembers before, (k, f), entityMembers after, defs, s, ?_, hrun,
          hkey, rfl⟩
        rw [hfields, entityMembers, List.filter_append, List.filter_cons_of_pos (by simpa using hk)]
        rfl
  | property u name t =>
    cases t with
    | scalar k => exact iff_of_false List.not_mem_nil fun h => by cases h
    | array t =>
      rw [directCalls, List.mem_singleton]
      exact ⟨fun h => h ▸ .item, by rintro (_ | _ | _ | _); rfl⟩
    | reference a =>
      rw [directCalls, List.mem_map]
      constructor
      · rintro ⟨e, he, rfl⟩
        exact .target (Option.mem_toList.1 he)
      · rintro (_ | _ | _ | ha)
        exact ⟨_, Option.mem_toList.2 ha, rfl⟩
    | shape fs =>
      rw [directCalls, mem_typeCalls_iff]
      constructor
      · rintro ⟨hvalid, hfree, front, m, back, defs, s, hms, hrun, hkey, rfl⟩
        exact .of_shapeMembers hvalid hfree hms hrun hkey
      · rintro (_ | ⟨hvalid, hfree, hrun, hkey⟩ | _ | _)
        rw [shapeFields_eq] at hrun
        exact ⟨hvalid, hfree, _, _, _, _, _, List.map_append, hrun, hkey, rfl⟩

variable (x) in
/-- A call and the calls behind it, in the order they are made. -/
def calls (p : Demand × TypeRegistry) : List (Demand × TypeRegistry) :=
  p :: (x.directCalls p).attach.flatMap fun c => calls c.1
termination_by Invokes.rank x p
decreasing_by exact Invokes.rank_lt (mem_directCalls_iff.1 c.2)

theorem calls_eq (p : Demand × TypeRegistry) :
    x.calls p = p :: (x.directCalls p).flatMap x.calls := by
  rw [calls, List.flatMap_subtype (g := x.calls) (fun _ _ => rfl), List.unattach_attach]

/-- **The calls behind a call** are those that the relation reaches. -/
theorem mem_calls_iff : q ∈ x.calls p ↔ Relation.ReflTransGen (Invokes x) p q := by
  induction p using (Invokes.wellFounded x).induction with
  | _ p ih =>
    rw [calls_eq, List.mem_cons, List.mem_flatMap, Relation.ReflTransGen.cases_head_iff]
    refine or_congr eq_comm (exists_congr fun c => ?_)
    rw [mem_directCalls_iff]
    exact and_congr_right fun hc => ih c hc

variable (x) in
/-- The demands of a session, each with the registry that it finds. -/
def sessionCalls : List Demand → TypeRegistry → List (Demand × TypeRegistry)
  | [], _ => []
  | q :: qs, r => (q, r) :: sessionCalls qs (x.answer q r).2

variable (x) in
/-- **The calls of a session**, in the order they are made. -/
def timeline (qs : List Demand) (r : TypeRegistry) : List (Demand × TypeRegistry) :=
  (x.sessionCalls qs r).flatMap x.calls

theorem mem_sessionCalls_iff {qs : List Demand} {r : TypeRegistry} :
    q ∈ x.sessionCalls qs r ↔
      ∃ before d after, qs = before ++ d :: after ∧ q = (d, (x.session before r).2) := by
  induction qs generalizing r with
  | nil => simp [sessionCalls]
  | cons d qs ih =>
    rw [sessionCalls, List.mem_cons, ih]
    constructor
    · rintro (rfl | ⟨before, d', after, rfl, rfl⟩)
      · exact ⟨[], d, qs, rfl, rfl⟩
      · exact ⟨d :: before, d', after, rfl, rfl⟩
    · rintro ⟨before, d', after, hqs, rfl⟩
      cases before with
      | nil =>
        obtain ⟨rfl, rfl⟩ := List.cons.inj hqs
        exact .inl rfl
      | cons d'' before =>
        obtain ⟨rfl, rfl⟩ := List.cons.inj hqs
        exact .inr ⟨before, d', after, rfl, rfl⟩

/-- **The calls of a session** are its demands, each where those before it have been answered, and
what lies behind them. -/
theorem mem_timeline_iff {qs : List Demand} {r : TypeRegistry} :
    q ∈ x.timeline qs r ↔ ∃ before d after, qs = before ++ d :: after ∧
      Relation.ReflTransGen (Invokes x) (d, (x.session before r).2) q := by
  simp only [timeline, List.mem_flatMap, mem_sessionCalls_iff, mem_calls_iff]
  constructor
  · rintro ⟨c, ⟨before, d, after, hqs, rfl⟩, hq⟩
    exact ⟨before, d, after, hqs, hq⟩
  · rintro ⟨before, d, after, hqs, hq⟩
    exact ⟨_, ⟨before, d, after, hqs, rfl⟩, hq⟩

/-- The demands of a session are calls of it, in their order. -/
theorem sessionCalls_sublist (qs : List Demand) (r : TypeRegistry) :
    (x.sessionCalls qs r).Sublist (x.timeline qs r) := by
  induction qs generalizing r with
  | nil => exact .slnil
  | cons d qs ih =>
    rw [timeline, sessionCalls, List.flatMap_cons, calls_eq, List.cons_append]
    exact ((ih _).trans (List.sublist_append_right _ _)).cons_cons _

end CompileContext

/-! ### Order -/

/-- A call has returned: what it leaves reserved is reserved. -/
def CompileContext.Returned (x : CompileContext) (p : Demand × TypeRegistry) (s : TypeRegistry) :
    Prop :=
  (x.answer p.1 p.2).2.Within s

/-- A call has passed its reservation: what it finds is reserved, and so is the name of its type,
if it has one of its own that passes the checks and the name is not taken by another. -/
structure CompileContext.Passed (x : CompileContext) (p : Demand × TypeRegistry)
    (s : TypeRegistry) : Prop where
  within : p.2.Within s
  reserved : ∀ b, p.1.blueprint? x = some b → b.Admissible →
    (∀ t, p.2.Reserved b.name t → t = b.signature) → s.Reserved b.name b.signature

/-- Calls are made one after the other between two registries: each is made where the calls before
it have come so far. -/
structure Chronological (x : CompileContext) (Done : Demand × TypeRegistry → TypeRegistry → Prop)
    (r : TypeRegistry) (cs : List (Demand × TypeRegistry)) (s : TypeRegistry) : Prop where
  consistent : ∀ c ∈ cs, Consistent x (fun _ => True) c.2
  after : ∀ c ∈ cs, r.Within c.2
  ordered : cs.Pairwise fun c c' => Done c c'.2
  before : ∀ c ∈ cs, x.Returned c s

namespace Chronological

variable {x : CompileContext} {Done : Demand × TypeRegistry → TypeRegistry → Prop} {q : Demand}
  {r r' s s' : TypeRegistry} {cs : List (Demand × TypeRegistry)}

theorem nil : Chronological x Done r [] s :=
  ⟨List.forall_mem_nil _, List.forall_mem_nil _, .nil, List.forall_mem_nil _⟩

theorem mono (h : Chronological x Done r cs s) (hr : r'.Within r) (hs : s.Within s') :
    Chronological x Done r' cs s' :=
  ⟨h.consistent, fun c hc => hr.trans (h.after c hc), h.ordered,
    fun c hc => (h.before c hc).trans hs⟩

theorem cons (hr : Consistent x (fun _ => True) r)
    (h : Chronological x x.Returned (x.answer q r).2 cs s) (hs : (x.answer q r).2.Within s) :
    Chronological x x.Returned r ((q, r) :: cs) s := by
  have hfirst := (answer_serves_all q hr).within
  exact ⟨List.forall_mem_cons.2 ⟨hr, h.consistent⟩,
    List.forall_mem_cons.2 ⟨.refl r, fun c hc => hfirst.trans (h.after c hc)⟩,
    List.pairwise_cons.2 ⟨h.after, h.ordered⟩, List.forall_mem_cons.2 ⟨hs, h.before⟩⟩

end Chronological

section Order

variable {x : CompileContext} {u : TypeUse} {q : Demand} {b : Blueprint} {name : String}
  {p : Demand × TypeRegistry} {r s s' : TypeRegistry} {cs : List (Demand × TypeRegistry)}

theorem CompileContext.Passed.mono (h : x.Passed p s) (hs : s.Within s') : x.Passed p s' :=
  ⟨h.within.trans hs, fun b hb hadm hown => hs _ _ (h.reserved b hb hadm hown)⟩

/-- A call that has returned has passed its reservation. -/
theorem CompileContext.Returned.passed (h : x.Returned p s)
    (hp : Consistent x (fun _ => True) p.2) : x.Passed p s := by
  refine ⟨(answer_serves_all p.1 hp).within.trans h, fun b hb hadm hown => h _ _ ?_⟩
  cases hcontains : p.2.contains b.name with
  | false => exact (Demand.answer_of_free hb hadm hp hcontains).1
  | true =>
    obtain ⟨t, ht⟩ := hp.exists_reserved hcontains
    obtain rfl := hown t ht
    rw [Demand.answer_of_reserved hb hadm ht]
    exact ht

/-! ### Direct calls -/

theorem memberCalls_chronological {before : List FieldDef} {ms : List (String × ProjectedField)}
    (hr : Consistent x (fun _ => True) r) :
    r.Within (memberFields x.catalog u (x.entityType u) name before ms r).2 ∧
      Chronological x x.Returned r (x.memberCalls u name before ms r)
        (memberFields x.catalog u (x.entityType u) name before ms r).2 := by
  induction ms generalizing before r with
  | nil => exact ⟨.refl r, .nil⟩
  | cons m ms ih =>
    unfold CompileContext.memberCalls
    rw [memberFields_cons]
    cases hvalid : Name.Valid m.1 with
    | false =>
      rw [if_neg (by decide), memberFields,
        bind_error (bind_error (checkName_of_not_valid hvalid r))]
      exact ⟨.refl r, .nil⟩
    | true =>
      have hserves := answer_serves_all (.property u (name ++ m.1) m.2.type) hr
      rcases hrun : memberFields x.catalog u (x.entityType u) name before [m] r with ⟨a, s⟩
      have hs : (x.answer (.property u (name ++ m.1) m.2.type) r).2 = s := by
        have hsame : (memberFields x.catalog u (x.entityType u) name before [m] r).2 =
            (x.answer (.property u (name ++ m.1) m.2.type) r).2 :=
          memberFields_single hvalid before r
        rw [hrun] at hsame
        exact hsame.symm
      have hwithin : r.Within s := hs ▸ hserves.within
      rw [if_pos rfl]
      cases a with
      | error e =>
        rw [bind_error hrun]
        exact ⟨hwithin, .cons hr .nil (hs ▸ .refl s)⟩
      | ok defs =>
        have hs' : Consistent x (fun _ => True) s := hs ▸ hserves.consistent
        rw [bind_ok hrun]
        exact ⟨hwithin.trans (ih hs').1, .cons hr (hs ▸ (ih hs').2) (hs ▸ (ih hs').1)⟩

/-- The calls of a type with members are made where its name is reserved. -/
theorem typeCalls_chronological {before : List FieldDef} {ms : List (String × ProjectedField)}
    {d : Option String} {t : TypeRef} (hb : q.blueprint? x = some b)
    (hanswer : x.answer q =
      generate x.catalog u (x.entityType u) b.name b.signature d before ms >>= fun _ => pure t)
    (hr : Consistent x (fun _ => True) r) :
    Chronological x x.Returned r (x.typeCalls u b.name b.signature before ms r) (x.answer q r).2 ∧
      ∀ c ∈ x.typeCalls u b.name b.signature before ms r, c.2.Reserved b.name b.signature := by
  unfold CompileContext.typeCalls
  split
  · rename_i hfree
    obtain ⟨hvalid, hfree⟩ := hfree
    have hget := TypeRegistry.get?_eq_none_of_free hfree
    have hreserved := r.reserved_enter b.name b.signature
    have hrow : Chronological x x.Returned (r.enter b.name b.signature.fingerprint)
        (x.memberCalls u b.name before ms (r.enter b.name b.signature.fingerprint))
        (memberFields x.catalog u (x.entityType u) b.name before ms
          (r.enter b.name b.signature.fingerprint)).2 :=
      (memberCalls_chronological (hr.enter trivial hb hget)).2
    -- finishing the type leaves reserved what its members have reserved
    have hend : (memberFields x.catalog u (x.entityType u) b.name before ms
        (r.enter b.name b.signature.fingerprint)).2.Within (x.answer q r).2 := by
      rw [hanswer, generate_of_valid hvalid]
      rcases hrun : memberFields x.catalog u (x.entityType u) b.name before ms
        (r.enter b.name b.signature.fingerprint) with ⟨e | defs, s⟩
      · rw [bind_error ((unlessReserved_free hget b.signature _).trans (bind_error hrun))]
        exact .refl s
      · have hbuild := (unlessReserved_free hget b.signature _).trans
          (bind_ok (f := fun fields => change (u.finish b.name d fields)) hrun)
        rw [change_apply] at hbuild
        rw [bind_ok hbuild]
        cases u <;> exact .refl s
    exact ⟨hrow.mono (TypeRegistry.within_enter hget _) hend,
      fun c hc => hrow.after c hc _ _ hreserved⟩
  · exact ⟨.nil, List.forall_mem_nil _⟩

/-- **The calls that a call makes** are made one after the other, once its own reservation has
passed. -/
theorem directCalls_chronological (hp : Consistent x (fun _ => True) p.2) :
    Chronological x x.Returned p.2 (x.directCalls p) (x.answer p.1 p.2).2 ∧
      ∀ c ∈ x.directCalls p, x.Passed p c.2 := by
  obtain ⟨q, r⟩ := p
  -- a call for a type of its own passes where its name is reserved
  have hpassed : ∀ {b : Blueprint} {c : Demand × TypeRegistry}, q.blueprint? x = some b →
      r.Within c.2 → c.2.Reserved b.name b.signature → x.Passed (q, r) c.2 := by
    intro b c hb hwithin hreserved
    refine ⟨hwithin, fun b' hb' _ _ => ?_⟩
    obtain rfl : b = b' := Option.some.inj (hb.symm.trans hb')
    exact hreserved
  cases q with
  | filter | sort => exact ⟨.nil, List.forall_mem_nil _⟩
  | entity u e =>
    obtain ⟨hrow, hreserved⟩ := typeCalls_chronological (b := x.entityBlueprint u e) rfl
      (Demand.answer_entity u e) hp
    rw [CompileContext.directCalls]
    exact ⟨hrow, fun c hc => hpassed rfl (hrow.after c hc) (hreserved c hc)⟩
  | property u name t =>
    cases t with
    | scalar k => exact ⟨.nil, List.forall_mem_nil _⟩
    | array t =>
      have hend : (x.answer (.property u name t) r).2.Within
          (x.answer (.property u name (.array t)) r).2 := by
        rw [Demand.answer_array]
        rcases hrun : x.answer (.property u name t) r with ⟨e | a, s⟩
        · rw [bind_error hrun]
          exact .refl s
        · rw [bind_ok hrun]
          exact .refl s
      exact ⟨Chronological.nil.cons hp hend, fun c hc => by
        obtain rfl := List.mem_singleton.1 hc
        exact ⟨.refl r, fun b hb => absurd hb (by simp [Demand.blueprint?])⟩⟩
    | reference a =>
      rw [CompileContext.directCalls]
      cases ha : x.catalog.get? a with
      | none => exact ⟨.nil, List.forall_mem_nil _⟩
      | some e =>
        rw [Demand.answer_reference ha]
        exact ⟨Chronological.nil.cons hp (.refl _), fun c hc => by
          obtain rfl := List.mem_singleton.1 hc
          exact ⟨.refl r, fun b hb => absurd hb (by simp [Demand.blueprint?])⟩⟩
    | shape fs =>
      by_cases hfs : fs = []
      · subst hfs
        rw [x.directCalls_empty]
        exact ⟨.nil, List.forall_mem_nil _⟩
      · obtain ⟨hrow, hreserved⟩ := typeCalls_chronological (b := u.shapeBlueprint name fs) rfl
          (Demand.answer_shape u name hfs) hp
        rw [CompileContext.directCalls]
        exact ⟨hrow, fun c hc => hpassed rfl (hrow.after c hc) (hreserved c hc)⟩

/-! ### All calls -/

/-- The calls behind calls that are made one after the other are in order, if this holds of each
of them. -/
theorem Chronological.flatMap_calls (h : Chronological x x.Returned r cs s)
    (hcalls : ∀ c ∈ cs, Chronological x x.Passed c.2 (x.calls c) (x.answer c.1 c.2).2) :
    Chronological x x.Passed r (cs.flatMap x.calls) s := by
  refine ⟨fun q hq => ?_, fun q hq => ?_,
    List.pairwise_flatMap.2 ⟨fun c hc => (hcalls c hc).ordered,
      h.ordered.imp_of_mem fun {c c'} hc hc' hdone q hq q' hq' => ?_⟩, fun q hq => ?_⟩
  · obtain ⟨c, hc, hq⟩ := List.mem_flatMap.1 hq
    exact (hcalls c hc).consistent q hq
  · obtain ⟨c, hc, hq⟩ := List.mem_flatMap.1 hq
    exact (h.after c hc).trans ((hcalls c hc).after q hq)
  · -- the first call has returned before the second is made
    have hreturned : x.Returned q q'.2 :=
      ((hcalls c hc).before q hq).trans (hdone.trans ((hcalls c' hc').after q' hq'))
    exact hreturned.passed ((hcalls c hc).consistent q hq)
  · obtain ⟨c, hc, hq⟩ := List.mem_flatMap.1 hq
    exact ((hcalls c hc).before q hq).trans (h.before c hc)

/-- **The calls behind a call are in order**: each is made where the reservations of those before
it have passed. -/
theorem calls_chronological (hp : Consistent x (fun _ => True) p.2) :
    Chronological x x.Passed p.2 (x.calls p) (x.answer p.1 p.2).2 := by
  induction p using (Invokes.wellFounded x).induction with
  | _ p ih =>
    obtain ⟨hrow, hpassed⟩ := directCalls_chronological hp
    have hbehind := hrow.flatMap_calls fun c hc =>
      ih c (CompileContext.mem_directCalls_iff.1 hc) (hrow.consistent c hc)
    rw [CompileContext.calls_eq]
    refine ⟨List.forall_mem_cons.2 ⟨hp, hbehind.consistent⟩,
      List.forall_mem_cons.2 ⟨.refl p.2, hbehind.after⟩,
      List.pairwise_cons.2 ⟨fun q hq => ?_, hbehind.ordered⟩,
      List.forall_mem_cons.2 ⟨.refl _, hbehind.before⟩⟩
    obtain ⟨c, hc, hq⟩ := List.mem_flatMap.1 hq
    have hc' := ih c (CompileContext.mem_directCalls_iff.1 hc) (hrow.consistent c hc)
    exact (hpassed c hc).mono (hc'.after q hq)

/-! ### Sessions -/

theorem sessionCalls_chronological (qs : List Demand) (hr : Consistent x (fun _ => True) r) :
    Chronological x x.Returned r (x.sessionCalls qs r) (x.session qs r).2 := by
  induction qs generalizing r with
  | nil => exact .nil
  | cons q qs ih =>
    have hq := answer_serves_all q hr
    exact (ih hq.consistent).cons hr (session_attended_all qs hq.consistent).within

/-- **The calls of a session are in order.** -/
theorem timeline_chronological (qs : List Demand) (hr : Consistent x (fun _ => True) r) :
    Chronological x x.Passed r (x.timeline qs r) (x.session qs r).2 :=
  have hrow := sessionCalls_chronological qs hr
  hrow.flatMap_calls fun c hc => calls_chronological (hrow.consistent c hc)

end Order

end EntityGraph
