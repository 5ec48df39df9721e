import EntityGraph.Proofs.Mutation.Written
import EntityGraph.Proofs.Schema.RootNames
import EntityGraph.Proofs.Value.Convert

/-!
Records that are read back. What a creation or an update answers is the record that it stored, with
every field it was given, and looking the record up by its identifier answers the same value for as
long as no allowed update or removal addresses it, whatever else is resolved in between.
-/

namespace EntityGraph

variable {σ : Type}

/-! ### The record that is stored -/

namespace Resolver

/-- The identifier of a record is made a text; its other fields stay. -/
theorem withTextId_obj (fs : Fields Json) :
    ∃ gs : Fields Json, withTextId (.obj fs) = .obj gs ∧
      gs.erase idField = fs.erase idField := by
  cases hid : Fields.get? fs idField with
  | none => exact ⟨fs, by simp only [withTextId, hid], rfl⟩
  | some id =>
    refine ⟨fs.insert idField (textId id), ?_, Fields.erase_insert fs idField (textId id)⟩
    simp only [withTextId, hid]

theorem recordOf_object {args : Argument.Arguments} {fs : Fields Value}
    (h : Fields.get? args "record" = some (.object fs)) :
    ∃ gs : Fields Json, recordOf args = .ok (.obj gs) ∧
      gs.erase idField = Fields.erase (Value.fieldsToJson fs) idField := by
  obtain ⟨gs, hgs, herase⟩ := withTextId_obj (Value.fieldsToJson fs)
  refine ⟨gs, ?_, herase⟩
  simp only [recordOf, h, Value.toJson, hgs]

theorem get?_given (fs : Fields Value) {key : String} (hkey : key ≠ idField) :
    Fields.get? (Fields.erase (Value.fieldsToJson fs) idField) key =
      (fs.get? key).map Value.toJson := by
  rw [Fields.get?_erase, if_neg hkey, Value.get?_fieldsToJson]

theorem distinct_given {fs : Fields Value} (h : fs.Distinct) :
    Fields.Distinct (Fields.erase (Value.fieldsToJson fs) idField) := by
  refine Fields.Distinct.erase ?_ idField
  rw [Fields.Distinct, Value.keys_fieldsToJson]
  exact h

/-- What becomes of the fields `fs` that a mutation is given: the record under the identifier `k`
has the fields `gs` beside it, and in the ledger `l` it had others before. -/
structure Kept (kind : MutationKind) (l : Ledger) (fs : Fields Value) (k : String)
    (gs : Fields Value) : Prop where
  given : ∀ key v, key ≠ idField → fs.get? key = some v →
    ∃ w, gs.get? key = some w ∧ w.toJson = v.toJson
  created : kind = .create → k ∉ l.keys ∧ gs.keys = fs.keys.filter (· ≠ idField)
  updated : kind = .update → ∃ old, l.get? k = some (.obj ((idField, .str k) :: old)) ∧
    ∀ key, key ≠ idField → fs.get? key = none → gs.get? key = (Fields.get? old key).map .ofJson

theorem kept_created {l : Ledger} {k : String} (hk : k ∉ l.keys) (fs : Fields Value) :
    Kept .create l fs k (Value.fieldsOfJson (Fields.erase (Value.fieldsToJson fs) idField)) where
  given key v hkey hv := by
    refine ⟨.ofJson v.toJson, ?_, Value.toJson_ofJson _⟩
    rw [Value.get?_fieldsOfJson, get?_given fs hkey, hv]
    rfl
  created _ := by
    refine ⟨hk, ?_⟩
    rw [Value.keys_fieldsOfJson, Fields.keys_erase, Value.keys_fieldsToJson]
  updated hkind := by cases hkind

theorem kept_updated {l : Ledger} {k : String} {old : Fields Json}
    (hold : l.get? k = some (.obj ((idField, .str k) :: old))) {fs : Fields Value}
    (hfs : fs.Distinct) :
    Kept .update l fs k (Value.fieldsOfJson
      (Fields.insertAll old (Fields.erase (Value.fieldsToJson fs) idField))) where
  given key v hkey hv := by
    refine ⟨.ofJson v.toJson, ?_, Value.toJson_ofJson _⟩
    rw [Value.get?_fieldsOfJson, Fields.get?_insertAll (distinct_given hfs), get?_given fs hkey, hv]
    rfl
  created hkind := by cases hkind
  updated _ := by
    refine ⟨old, hold, fun key hkey hnone => ?_⟩
    rw [Value.get?_fieldsOfJson, Fields.get?_insertAll (distinct_given hfs), get?_given fs hkey,
      hnone]
    rfl

/-- The record that a creation or an update shows is in the ledger, under the identifier that it
starts with. -/
theorem Written.stored {fresh : String} {args : Argument.Arguments} {l l' : Ledger}
    {kind : MutationKind} {a : Except ApiError (Option Value)} (h : Written fresh args l kind a l')
    (hl : l.WellFormed) (hkind : kind ≠ .remove) {fs : Fields Value}
    (hargs : Fields.get? args "record" = some (.object fs)) (hfs : fs.Distinct) {R : Value}
    (hR : a = .ok (some R)) :
    ∃ k gs record, R = .object ((idField, .str k) :: gs) ∧ R = .ofJson record ∧
      l'.get? k = some record ∧ (kind = .update → target? kind args = some k) ∧
      Kept kind l fs k gs := by
  obtain ⟨given, hgiven, herase⟩ := recordOf_object hargs
  cases h with
  | failed | void => cases hR
  | removed => exact absurd rfl hkind
  | @created fs' k hrecord hid hk =>
    obtain rfl : given = fs' := Json.obj.inj (Except.ok.inj (hgiven.symm.trans hrecord))
    obtain rfl : Value.ofJson (Collection.stored k given) = R := Option.some.inj (Except.ok.inj hR)
    refine ⟨k, _, _, ?_, rfl, ?_, fun hupdate => absurd hupdate (by decide), kept_created hk fs⟩
    · rw [Collection.stored, herase]
      rfl
    · rw [Fields.get?_append, Fields.get?_eq_none_iff.2 hk, Fields.get?_cons, if_pos rfl]
      rfl
  | @updated fs' k record hrecord hid hold =>
    obtain rfl : given = fs' := Json.obj.inj (Except.ok.inj (hgiven.symm.trans hrecord))
    obtain rfl : Value.ofJson (Collection.merge given record) = R :=
      Option.some.inj (Except.ok.inj hR)
    obtain ⟨old, rfl⟩ : ∃ old, record = .obj ((idField, .str k) :: old) :=
      hl.keyed _ (Fields.mem_of_get? hold)
    have hmerge : Collection.merge given (.obj ((idField, .str k) :: old)) =
        .obj ((idField, .str k) ::
          Fields.insertAll old (Fields.erase (Value.fieldsToJson fs) idField)) := by
      rw [← herase]
      exact congrArg Json.obj
        (Fields.insertAll_cons_of_notMem (Fields.notMem_keys_erase given idField) old)
    refine ⟨k, _, _, ?_, rfl, ?_, fun _ => ?_, kept_updated hold hfs⟩
    · rw [hmerge]
      rfl
    · rw [Ledger.get?_replace, if_pos rfl, hold]
      rfl
    · rw [target?_update, hrecord]
      exact hid

end Resolver

/-! ### What leaves a record alone -/

theorem Ledger.Touched.get?_of_ne {kind : MutationKind} {address : Option String} {l l' : Ledger}
    (h : Ledger.Touched kind address l l') {k : String} (hk : address ≠ some k) {record : Json}
    (hrecord : l.get? k = some record) : l'.get? k = some record := by
  cases h with
  | untouched => exact hrecord
  | created hid =>
    rw [Fields.get?_append, hrecord]
    rfl
  | @updated _ id _ hid =>
    have hne : k ≠ id := fun hsame => hk (congrArg some hsame.symm)
    rw [Ledger.get?_replace, if_neg hne]
    exact hrecord
  | @removed _ id =>
    have hne : k ≠ id := fun hsame => hk (congrArg some hsame.symm)
    rw [Fields.get?_erase, if_neg hne]
    exact hrecord

namespace Host

/-- The field call is an update or a removal that the policy allows, and it addresses the record
of an identifier in a collection. -/
def Overwrites (h : Host σ) (collection id : String) (m : FieldCall) (t : σ) : Prop :=
  ∃ aliasName kind r, m.field.source = .mutation aliasName kind ∧
    h.repositories.get? aliasName = some r ∧ r.collection = collection ∧
    Resolver.target? kind m.args = some id ∧
    (h.check ⟨kind, aliasName, some id, m.context⟩ t).1.isAllowed = true

/-- The states that resolving fields leads to, one after the other, none of which overwrites the
record of an identifier. In between, entries may change places. -/
inductive Continues (h : Host σ) (view : σ → Store) (collection id : String) : σ → σ → Prop
  | refl (t : σ) : Continues h view collection id t t
  | resolved {t u : σ} (m : FieldCall) :
      Continues h view collection id t u → ¬ h.Overwrites collection id m u →
      Continues h view collection id t (h.resolve m.context m.field m.parent m.args u).2
  | rearranged {t u v : σ} :
      Continues h view collection id t u → (view u).Rearranged (view v) →
      Continues h view collection id t v

namespace InMemory

variable {h : Host σ} {view : σ → Store} {put : Store → σ → σ} (hh : h.InMemory view put)
include hh

theorem get?_resolve {collection k : String} {m : FieldCall} {t : σ} (ht : (view t).Reachable)
    (hm : ¬ h.Overwrites collection k m t) {record : Json}
    (hrecord : ((view t).ledger collection).get? k = some record) :
    ((view (h.resolve m.context m.field m.parent m.args t).2).ledger collection).get? k =
      some record := by
  by_cases hf : ∃ a kind, m.field.source = .mutation a kind
  · obtain ⟨a, kind, hf⟩ := hf
    cases hr : h.repositories.get? a with
    | none =>
      unfold Host.resolve
      simp only [hf, hr]
      exact hrecord
    | some r =>
      rw [h.resolve_mutation hf hr]
      obtain ⟨hothers, hown, -⟩ :=
        hh.framed_mutation hr m.context kind m.args ht.sound
      by_cases hname : collection = r.collection
      · subst hname
        by_cases htarget : Resolver.target? kind m.args = some k
        · -- the mutation addresses the record, so the policy denies it
          have hdenied :
              ¬ (h.check ⟨kind, a, some k, m.context⟩ t).1.isAllowed = true := fun hallowed =>
            hm ⟨a, kind, r, hf, hr, rfl, htarget, hallowed⟩
          rw [Resolver.mutation_eq, htarget, if_neg hdenied, hh.apart]
          exact hrecord
        · exact hown.get?_of_ne htarget hrecord
      · exact (congrArg (Fields.get? · k) (hothers collection hname)).trans hrecord
  · rw [hh.view_resolve (fun a kind hk => hf ⟨a, kind, hk⟩)]
    exact hrecord

/-- **A record stays for as long as nothing overwrites it.** -/
theorem get?_continues {collection k : String} {t u : σ}
    (hu : h.Continues view collection k t u) (ht : (view t).Reachable) {record : Json}
    (hrecord : ((view t).ledger collection).get? k = some record) :
    (view u).Reachable ∧ ((view u).ledger collection).get? k = some record := by
  -- that the store is reachable goes along, since only then does a ledger not see rearrangements
  induction hu with
  | refl => exact ⟨ht, hrecord⟩
  | resolved m _ hm ih =>
    obtain ⟨hu, hkept⟩ := ih
    exact ⟨hh.reachable_resolve m.context m.field m.parent m.args hu, hh.get?_resolve hu hm hkept⟩
  | @rearranged u v _ hv ih =>
    obtain ⟨hu, hkept⟩ := ih
    have hledger : (view v).ledger collection = (view u).ledger collection :=
      (hu.sound.collections collection).ledger_rearranged (hv collection)
    exact ⟨.rearranged hv hu, hledger ▸ hkept⟩

end InMemory

end Host

/-! ### Reading back -/

/-- The queries of an entity that look a record up by its identifier. -/
theorem Entity.source_of_name {e : Entity} {types : EntityTypes} {f : FieldDef}
    (hf : f ∈ e.queryFields types)
    (hname : f.name = e.aliasName ++ "EntityFindById" ∨ f.name = e.aliasName ++ "FindById") :
    f.source = .query e.aliasName .findById := by
  rcases hname with hname | hname
  · exact source_of_suffix hf hname (by decide)
  · exact source_of_suffix hf hname (by decide)

/-- **What a mutation answers is what is read from then on.** Suppose that a creation or an update
of an entity is given a record that is an object, in any state that calls lead to, and answers a
record. Then the answer starts with its identifier and holds every other field that was given, with
a value that is the same JSON. A creation adds nothing to these fields. An update is the one of the
record with the identifier that was given, and keeps all fields of it that it was not given. Both
look-ups of the entity by this identifier answer exactly this record, in every state that is
reached from there without an allowed update or removal of it. -/
theorem record_read_back {h : Host σ} {view : σ → Store} {put : Store → σ → σ}
    (hh : h.InMemory view put) {e : Entity} {r : Repository σ}
    (hr : h.repositories.get? e.aliasName = some r) {t : σ} (ht : (view t).Reachable)
    {m : FieldCall} {kind : MutationKind} (hm : m.field.source = .mutation e.aliasName kind)
    (hkind : kind ≠ .remove) {fs : Fields Value}
    (hargs : Fields.get? m.args "record" = some (.object fs)) (hfs : fs.Distinct) {R : Value}
    (hR : (h.resolve m.context m.field m.parent m.args t).1 = .ok (some R)) :
    ∃ k gs, R = .object ((idField, .str k) :: gs) ∧
      (kind = .update → Resolver.target? kind m.args = some k) ∧
      Resolver.Kept kind ((view t).ledger r.collection) fs k gs ∧
      ∀ u, h.Continues view r.collection k
          (h.resolve m.context m.field m.parent m.args t).2 u →
        ∀ (types : EntityTypes), ∀ f ∈ e.queryFields types,
          f.name = e.aliasName ++ "EntityFindById" ∨ f.name = e.aliasName ++ "FindById" →
          ∀ (context : Option RequestContext) (parent : Value) (args : Argument.Arguments),
            Resolver.idOf? args = some k →
            (h.resolve context f parent args u).1 = .ok (some R) := by
  have hwritten := hh.written_mutation hr m.context kind m.args ht.sound
  rw [← h.resolve_mutation hm hr m.context m.parent m.args] at hwritten
  obtain ⟨k, gs, record, hobject, hrecord, hstored, htarget, hkept⟩ :=
    hwritten.stored (ht.sound.ledgers r.collection) hkind hargs hfs hR
  refine ⟨k, gs, hobject, htarget, hkept, fun u hu types f hf hname context parent args hid => ?_⟩
  have hafter := hh.reachable_resolve m.context m.field m.parent m.args ht
  obtain ⟨hreachable, hfound⟩ := hh.get?_continues hu hafter hstored
  have hsource := Entity.source_of_name hf hname
  rw [hh.resolve_findById hsource hr hid hreachable.sound context parent, hfound, hrecord]
  rfl

def noteTypes : EntityTypes :=
  ⟨"note", "noteEntity", "noteEntityFilter", "noteEntitySort", "noteInput"⟩

/-- Someone who is known creates a note without an identifier. -/
def createNote : FieldCall where
  context := some ⟨some ⟨"u1"⟩, "q1"⟩
  field := noteMutation .create
  parent := .null
  args := [("record", .object [("text", .item "DRAFT"), ("tags", .list [.null, .int 1])])]

/-- Someone who is not known removes it. -/
def removeNote : FieldCall := ⟨none, noteMutation .remove, .null, [("id", .str "n1")]⟩

theorem not_overwrites_removeNote (s : Store) :
    ¬ noteHost.Overwrites "note" "n1" removeNote s := by
  rintro ⟨aliasName, kind, r, -, -, -, -, hallowed⟩
  simp [noteHost, removeNote, MutationPolicy.check, MutationPolicy.requireIdentity,
    MutationRequest.identity?, PolicyDecision.isAllowed] at hallowed

/-- A note is created and read after a removal that was denied. -/
theorem record_read_back_note :
    let empty := Store.start fun _ => "n1"
    let answer := Value.object
      [("_id", .str "n1"), ("text", .str "DRAFT"), ("tags", .list [.null, .int 1])]
    let created := noteHost.resolve createNote.context createNote.field .null createNote.args empty
    noteHost.InMemory id (fun s _ => s) ∧ empty.Reachable ∧ created.1 = .ok (some answer) ∧
      ∀ f ∈ (Entity.bare "note").queryFields noteTypes, f.name = "noteFindById" →
        (noteHost.resolve none f .null [("id", .str "n1")]
          (noteHost.resolve none removeNote.field .null removeNote.args created.2).2).1 =
            .ok (some answer) := by
  intro empty answer created
  refine ⟨noteHost_inMemory, .start _, rfl, fun f hf hname => ?_⟩
  obtain ⟨k, gs, hobject, -, -, hread⟩ := record_read_back noteHost_inMemory
    (e := .bare "note") (r := Store.repository "note") (t := empty) rfl (.start _)
    (m := createNote) rfl (by decide) rfl (by decide) rfl
  obtain rfl : "n1" = k := by
    injection hobject with hfields
    injection (List.cons.inj hfields).1 with _ hvalue
    injection hvalue
  exact hread _ (.resolved removeNote (.refl _) (not_overwrites_removeNote _)) noteTypes f hf
    (.inr hname) none .null _ rfl

end EntityGraph
