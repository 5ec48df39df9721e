import EntityGraph.Proofs.Collection.Refinement
import EntityGraph.Repository.Database

/-!
Stores keep a ledger for every collection. A call on a collection does to its ledger what the call
says, and leaves the ledgers of the other collections as they are. This holds in every store that
calls can lead to, in whatever order a collection keeps its entries.
-/

namespace EntityGraph

open Repository (LoggedCall)

/-- The state that a call on a repository leaves behind. -/
def Repository.after {σ : Type} (r : Repository σ) : LoggedCall → σ → σ
  | .count f, s => (r.count f s).2
  | .findById id, s => (r.findById id s).2
  | .find q, s => (r.find q s).2
  | .create record, s => (r.create record s).2
  | .update id changes, s => (r.update id changes s).2
  | .deleteById id, s => (r.deleteById id s).2

theorem Database.collection_setCollection (d : Database) (name : String) (c : Collection)
    (other : String) :
    (d.setCollection name c).collection other = if other = name then c else d.collection other := by
  simp only [collection, setCollection, Fields.get?_insert, eq_comm (a := other)]
  split <;> rfl

namespace Store

variable {s t : Store} {name : String} {α : Type}

/-- The ledger of the collection of a name. -/
def ledger (s : Store) (name : String) : Ledger := (s.database.collection name).ledger

theorem ledger_start (supply : Nat → String) (name : String) : (start supply).ledger name = [] :=
  Collection.ledger_empty name

/-! ### Sound stores -/

/-- **What holds of a store between two calls**: every collection is sound, and every ledger is in
order. -/
structure Sound (s : Store) : Prop where
  collections : ∀ name, (s.database.collection name).Sound
  ledgers : ∀ name, (s.ledger name).WellFormed

/-- A store in which the entries of the collections stand in other places. What identifiers it
hands out from here on is left open. -/
def Rearranged (s t : Store) : Prop :=
  ∀ name, (s.database.collection name).Rearranged (t.database.collection name)

/-- A step on a store does what a step on the ledger of a collection does. -/
structure Mirrors (s : Store) (name : String) (r : α × Store) (l : α × Ledger) : Prop where
  sound : Sound r.2
  answer : r.1 = l.1
  own : r.2.ledger name = l.2
  others : ∀ other, other ≠ name → r.2.ledger other = s.ledger other

namespace Sound

theorem start (supply : Nat → String) : Sound (start supply) :=
  ⟨fun name => .empty name, fun name => ledger_start supply name ▸ .empty⟩

variable (h : Sound s)
include h

theorem rearranged (ht : s.Rearranged t) : Sound t :=
  ⟨fun name => (h.collections name).rearranged (ht name), fun name => by
    rw [ledger, (h.collections name).ledger_rearranged (ht name)]
    exact h.ledgers name⟩

/-- A change of a collection shows in its own ledger and in no other. -/
theorem change {f : Collection → α × Collection} {l : α × Ledger}
    (hf : (s.database.collection name).Mirrors (f (s.database.collection name)) l)
    (hl : l.2.WellFormed) : s.Mirrors name (s.change name f) l := by
  have hcollection : ∀ other, (s.change name f).2.database.collection other =
      if other = name then (f (s.database.collection name)).2
      else s.database.collection other :=
    fun other => Database.collection_setCollection s.database name _ other
  have hown : (s.change name f).2.ledger name = l.2 := by
    rw [ledger, hcollection, if_pos rfl, hf.ledger]
  have hothers : ∀ other, other ≠ name → (s.change name f).2.ledger other = s.ledger other :=
    fun other hne => by rw [ledger, hcollection, if_neg hne, ledger]
  refine ⟨⟨fun other => ?_, fun other => ?_⟩, hf.answer, hown, hothers⟩
  · rw [hcollection]
    split
    · exact hf.sound
    · exact h.collections other
  · by_cases hname : other = name
    · rw [hname, hown]
      exact hl
    · rw [hothers other hname]
      exact h.ledgers other

theorem create (name : String) (record : Json) :
    s.Mirrors name ((repository name).create record s)
      ((s.ledger name).create (s.database.collection name).name s.fresh record) := by
  obtain ⟨hsound, hanswer, hown, hothers⟩ := h.change
    ((h.collections name).create s.fresh record) ((h.ledgers name).create _ s.fresh record)
  exact ⟨⟨hsound.collections, hsound.ledgers⟩, hanswer, hown, hothers⟩

theorem update (name id : String) (changes : Json) :
    s.Mirrors name ((repository name).update id changes s) ((s.ledger name).update id changes) :=
  h.change ((h.collections name).update id changes) ((h.ledgers name).update id changes)

theorem deleteById (name id : String) :
    s.Mirrors name ((repository name).deleteById id s)
      (.ok ((s.ledger name).contains id), (s.ledger name).erase id) := by
  obtain ⟨hsound, hanswer, hown, hothers⟩ := h.change
    ((h.collections name).deleteById id) ((h.ledgers name).deleteById id)
  exact ⟨hsound, congrArg Except.ok hanswer, hown, hothers⟩

/-- Every call leaves a sound store behind. -/
theorem after (name : String) (c : LoggedCall) : Sound ((repository name).after c s) := by
  cases c with
  | count f => exact h
  | findById id => exact h
  | find q => exact h
  | create record => exact (h.create name record).sound
  | update id changes => exact (h.update name id changes).sound
  | deleteById id => exact (h.deleteById name id).sound

end Sound

/-! ### Reachable stores -/

/-- The stores that calls lead to, one after the other, on any collections and with any arguments.
In between, entries may change places. -/
inductive Reachable : Store → Prop
  | start (supply : Nat → String) : Reachable (.start supply)
  | call {s : Store} (name : String) (c : LoggedCall) :
      Reachable s → Reachable ((repository name).after c s)
  | rearranged {s t : Store} : s.Rearranged t → Reachable s → Reachable t

theorem Reachable.sound (h : Reachable s) : Sound s := by
  induction h with
  | start supply => exact .start supply
  | call name c _ ih => exact ih.after name c
  | rearranged ht _ ih => exact ih.rearranged ht

end Store

end EntityGraph
