import EntityGraph.Repository.Collection

/-!
Ledgers: what a collection is to those who use it. A ledger lists records with their identifiers
in the order in which they were created. A record that is created comes last, one that is updated
keeps its place, and one that is deleted leaves the others as they are.
-/

namespace EntityGraph

/-- Records by identifier, in the order in which they were created. -/
abbrev Ledger := Fields Json

/-- A call that may change records. A creation brings the identifier that was generated for it,
should it need one. -/
inductive Write where
  | create (fresh : String) (record : Json)
  | update (id : String) (changes : Json)
  | deleteById (id : String)

/-- The answer of a write. -/
inductive WriteAnswer where
  | created (answer : Except RepositoryError Json)
  | updated (answer : Except RepositoryError (Option Json))
  | deleted (found : Bool)

/-- The identifier that is generated is not empty. -/
def Write.Supplied : Write → Prop
  | .create fresh _ => fresh ≠ ""
  | .update .. | .deleteById _ => True

namespace Ledger

/-- The entry of a new record, or why it is refused. -/
def entryFor (collection fresh : String) (record : Json) (l : Ledger) :
    Except RepositoryError (String × Json) :=
  match record.asObject? with
  | none => .error Collection.notObject
  | some fs =>
    match Collection.newId fresh fs with
    | .error e => .error e
    | .ok id =>
      if id ∈ l.keys then .error (.alreadyExists collection id)
      else .ok (id, Collection.stored id fs)

/-- Creates a record, which comes last. -/
def create (collection fresh : String) (record : Json) (l : Ledger) :
    Except RepositoryError Json × Ledger :=
  match entryFor collection fresh record l with
  | .error e => (.error e, l)
  | .ok entry => (.ok entry.2, l ++ [entry])

/-- Puts a record in the place of the one with its identifier. -/
def replace (id : String) (record : Json) (l : Ledger) : Ledger :=
  l.map fun e => if e.1 = id then (id, record) else e

/-- Updates a record in its place. -/
def update (id : String) (changes : Json) (l : Ledger) :
    Except RepositoryError (Option Json) × Ledger :=
  match changes.asObject? with
  | none => (.error Collection.notObject, l)
  | some fs =>
    match l.get? id with
    | none => (.ok none, l)
    | some record =>
      (.ok (some (Collection.merge fs record)), l.replace id (Collection.merge fs record))

/-- Deletes a record. -/
def deleteById (id : String) (l : Ledger) : Bool × Ledger := (l.contains id, l.erase id)

/-- Performs a write. -/
def perform (collection : String) : Write → Ledger → WriteAnswer × Ledger
  | .create fresh record, l =>
    ((.created (l.create collection fresh record).1), (l.create collection fresh record).2)
  | .update id changes, l => ((.updated (l.update id changes).1), (l.update id changes).2)
  | .deleteById id, l => ((.deleted (l.deleteById id).1), (l.deleteById id).2)

/-- Performs writes one after the other. -/
def run (collection : String) : List Write → Ledger → List WriteAnswer × Ledger
  | [], l => ([], l)
  | w :: ws, l =>
    let (answer, l) := l.perform collection w
    let (answers, l) := run collection ws l
    (answer :: answers, l)

/-! ### Replacing and creating -/

section

variable {l : Ledger} {collection fresh id : String} {record : Json} {e : String × Json}

/-- Replacing a record moves no identifier. -/
theorem keys_replace (id : String) (record : Json) (l : Ledger) :
    Fields.keys (l.replace id record) = l.keys := by
  simp only [Fields.keys, replace, List.map_map]
  refine List.map_congr_left fun f _ => ?_
  by_cases h : f.1 = id <;> simp [h]

theorem mem_replace (h : e ∈ l.replace id record) : e = (id, record) ∨ e ∈ l := by
  obtain ⟨f, hf, rfl⟩ := List.mem_map.1 h
  split
  · exact .inl rfl
  · exact .inr hf

/-- A replaced record is read where it was, and every other record as before. -/
theorem get?_replace (id : String) (record : Json) (l : Ledger) (k : String) :
    Fields.get? (l.replace id record) k =
      if k = id then (l.get? id).map fun _ => record else l.get? k := by
  induction l with
  | nil => simp [replace]
  | cons e l ih =>
    have hcons : replace id record (e :: l) =
        (if e.1 = id then (id, record) else e) :: replace id record l := rfl
    rw [hcons, Fields.get?_cons, Fields.get?_cons, Fields.get?_cons, ih]
    by_cases he : e.1 = id
    · by_cases hk : k = id
      · simp [he, hk]
      · simp [he, hk, Ne.symm hk]
    · by_cases hk : k = id
      · simp [he, hk]
      · simp [he, hk]

/-- A record with a new identifier is accepted. -/
theorem entryFor_of_notMem {fs : Fields Json} (hid : Collection.newId fresh fs = .ok id)
    (h : id ∉ l.keys) :
    l.entryFor collection fresh (.obj fs) = .ok (id, Collection.stored id fs) := by
  simp [entryFor, Json.asObject?, hid, h]

/-- Whatever is created, either nothing happens or a record with a new identifier comes last. -/
theorem create_cases (collection fresh : String) (record : Json) (l : Ledger) :
    (∃ e, l.create collection fresh record = (.error e, l)) ∨
      ∃ id fs, id ∉ l.keys ∧ Collection.newId fresh fs = .ok id ∧
        l.create collection fresh record =
          (.ok (Collection.stored id fs), l ++ [(id, Collection.stored id fs)]) := by
  unfold create entryFor
  cases record.asObject? with
  | none => exact .inl ⟨_, rfl⟩
  | some fs =>
    cases hid : Collection.newId fresh fs with
    | error e => exact .inl ⟨e, by simp only [hid]⟩
    | ok id =>
      by_cases hmem : id ∈ l.keys
      · exact .inl ⟨.alreadyExists collection id, by simp only [hid, hmem, if_true]⟩
      · exact .inr ⟨id, fs, hmem, hid, by simp only [hid, hmem, if_false]⟩

/-- Whatever is updated, either nothing happens or the record of the identifier is merged with the
changes in its place. -/
theorem update_cases (id : String) (changes : Json) (l : Ledger) :
    (∃ e, l.update id changes = (.error e, l)) ∨ l.update id changes = (.ok none, l) ∨
      ∃ fs record, (id, record) ∈ l ∧
        l.update id changes =
          (.ok (some (Collection.merge fs record)),
            l.replace id (Collection.merge fs record)) := by
  unfold update
  cases changes.asObject? with
  | none => exact .inl ⟨_, rfl⟩
  | some fs =>
    cases hrecord : l.get? id with
    | none => exact .inr (.inl rfl)
    | some record => exact .inr (.inr ⟨fs, record, Fields.mem_of_get? hrecord, rfl⟩)

end

/-! ### What writes preserve -/

/-- A stored record: an object whose first field is its identifier. -/
def Keyed (e : String × Json) : Prop := ∃ fs, e.2 = .obj ((idField, .str e.1) :: fs)

/-- Merging leaves the identifier in the first place. -/
theorem Keyed.merge {id : String} {record : Json} (h : Keyed (id, record)) (changes : Fields Json) :
    Keyed (id, Collection.merge changes record) := by
  obtain ⟨fs, rfl⟩ : ∃ fs, record = .obj ((idField, .str id) :: fs) := h
  refine ⟨Fields.insertAll fs (changes.erase idField), ?_⟩
  exact congrArg Json.obj
    (Fields.insertAll_cons_of_notMem (Fields.notMem_keys_erase changes idField) fs)

/-- A ledger in order: no identifier occurs twice, and every record starts with its own. -/
structure WellFormed (l : Ledger) : Prop where
  distinct : l.Distinct
  keyed : ∀ e ∈ l, Keyed e

namespace WellFormed

theorem empty : WellFormed [] :=
  ⟨by simp [Fields.Distinct, Fields.keys], List.forall_mem_nil _⟩

section

variable {l : Ledger} (h : l.WellFormed)
include h

theorem create (collection fresh : String) (record : Json) :
    (l.create collection fresh record).2.WellFormed := by
  rcases l.create_cases collection fresh record with ⟨e, hcreate⟩ | ⟨id, fs, hnew, -, hcreate⟩
  · rw [hcreate]
    exact h
  · rw [hcreate]
    refine ⟨?_, List.forall_mem_append.2 ⟨h.keyed, List.forall_mem_singleton.2 ⟨_, rfl⟩⟩⟩
    simp only [Fields.Distinct, Fields.keys, List.map_append, List.map_cons, List.map_nil]
    exact List.nodup_append.2 ⟨h.distinct, by simp, fun a ha b hb hab =>
      hnew (List.mem_singleton.1 hb ▸ hab ▸ ha)⟩

theorem update (id : String) (changes : Json) : (l.update id changes).2.WellFormed := by
  rcases l.update_cases id changes with ⟨e, hupdate⟩ | hupdate | ⟨fs, record, hmem, hupdate⟩
  · rw [hupdate]
    exact h
  · rw [hupdate]
    exact h
  · rw [hupdate]
    refine ⟨by rw [Fields.Distinct, keys_replace]; exact h.distinct, fun e he => ?_⟩
    rcases mem_replace he with rfl | he
    · exact (h.keyed _ hmem).merge fs
    · exact h.keyed e he

theorem deleteById (id : String) : (l.deleteById id).2.WellFormed :=
  ⟨h.distinct.erase id, fun e he => h.keyed e (List.mem_filter.1 he).1⟩

theorem perform (collection : String) (w : Write) : (l.perform collection w).2.WellFormed := by
  cases w with
  | create fresh record => exact h.create collection fresh record
  | update id changes => exact h.update id changes
  | deleteById id => exact h.deleteById id

theorem run (collection : String) (ws : List Write) : (l.run collection ws).2.WellFormed := by
  induction ws generalizing l with
  | nil => exact h
  | cons w ws ih => exact ih (h.perform collection w)

end

end WellFormed

/-! ### Identifiers that are not empty -/

section

variable {l : Ledger} {w : Write} {ws : List Write}

theorem newId_ne_empty {fresh id : String} {fs : Fields Json} (hfresh : fresh ≠ "")
    (h : Collection.newId fresh fs = .ok id) : id ≠ "" := by
  unfold Collection.newId at h
  split at h
  · exact Except.ok.inj h ▸ hfresh
  · exact Except.ok.inj h ▸ hfresh
  · split at h
    · exact Except.ok.inj h ▸ hfresh
    · rename_i hid
      exact Except.ok.inj h ▸ hid
  · cases h

/-- As long as none is generated, the empty identifier is not stored. -/
theorem empty_notMem_perform (h : "" ∉ l.keys) (hw : w.Supplied) (collection : String) :
    "" ∉ (l.perform collection w).2.keys := by
  cases w with
  | create fresh record =>
    simp only [perform]
    rcases l.create_cases collection fresh record with ⟨e, hcreate⟩ | ⟨id, fs, -, hid, hcreate⟩
    · rwa [hcreate]
    · have hne := newId_ne_empty hw hid
      rw [hcreate]
      simpa [Fields.keys, Ne.symm hne] using h
  | update id changes =>
    simp only [perform]
    rcases l.update_cases id changes with ⟨e, hupdate⟩ | hupdate | ⟨fs, record, -, hupdate⟩
    · rwa [hupdate]
    · rwa [hupdate]
    · rwa [hupdate, keys_replace]
  | deleteById id =>
    simp only [perform, deleteById]
    rw [Fields.keys_erase]
    exact fun hmem => h (List.mem_filter.1 hmem).1

theorem empty_notMem_run (h : "" ∉ l.keys) (hws : ∀ w ∈ ws, w.Supplied) (collection : String) :
    "" ∉ (l.run collection ws).2.keys := by
  induction ws generalizing l with
  | nil => exact h
  | cons w ws ih =>
    obtain ⟨hw, hws⟩ := List.forall_mem_cons.1 hws
    exact ih (empty_notMem_perform h hw collection) hws

end

end Ledger

end EntityGraph
