import EntityGraph.Proofs.Collection.History
import EntityGraph.Proofs.Store.Ledgers

/-!
Sessions: calls on the collections of a store, one after the other, in any order. The calls on one
collection can be told from the rest: they do to its ledger what they do when nobody else calls,
and are answered from it alone.
-/

namespace EntityGraph

open Repository (LoggedCall)

/-! ### Answers -/

/-- The answer of a call. -/
inductive CallAnswer where
  | counted (answer : Except RepositoryError Nat)
  | looked (answer : Except RepositoryError (Option Json))
  | listed (answer : Except RepositoryError (List Json))
  | created (answer : Except RepositoryError Json)
  | updated (answer : Except RepositoryError (Option Json))
  | deleted (answer : Except RepositoryError Bool)

/-- The answer of a repository to a call. -/
def Repository.answer {σ : Type} (r : Repository σ) : LoggedCall → σ → CallAnswer
  | .count f, s => .counted (r.count f s).1
  | .findById id, s => .looked (r.findById id s).1
  | .find q, s => .listed (r.find q s).1
  | .create record, s => .created (r.create record s).1
  | .update id changes, s => .updated (r.update id changes s).1
  | .deleteById id, s => .deleted (r.deleteById id s).1

namespace Ledger

/-- The records that pass a filter. -/
def passing (f : Filter) (l : Ledger) : List Json :=
  (l.map Prod.snd).filter fun record => f.passes record

/-- Answers a call, for which an identifier was generated should it need one. -/
def respond (collection fresh : String) : LoggedCall → Ledger → CallAnswer × Ledger
  | .count f, l => (.counted (.ok (l.passing f).length), l)
  | .findById id, l => (.looked (.ok (l.get? id)), l)
  | .find q, l =>
    (.listed (.ok (page q.skip q.limit (sortRecords q.sort (l.passing q.filter)))), l)
  | .create record, l =>
    (.created (l.create collection fresh record).1, (l.create collection fresh record).2)
  | .update id changes, l => (.updated (l.update id changes).1, (l.update id changes).2)
  | .deleteById id, l => (.deleted (.ok (l.deleteById id).1), (l.deleteById id).2)

/-- Answers calls one after the other. -/
def respondAll (collection : String) :
    List (String × LoggedCall) → Ledger → List CallAnswer × Ledger
  | [], l => ([], l)
  | (fresh, c) :: cs, l =>
    let (answer, l) := l.respond collection fresh c
    let (answers, l) := respondAll collection cs l
    (answer :: answers, l)

end Ledger

/-! ### Notes -/

/-- What is noted of a call: the collection it is made on, the identifier that was generated for
it, should it need one, and its answer. -/
structure Noted where
  collection : String
  fresh : String
  call : LoggedCall
  answer : CallAnswer

namespace Noted

variable {name : String} {n : Noted} {h k : List Noted}

/-- The notes of one collection. -/
def on (name : String) (h : List Noted) : List Noted := h.filter fun n => n.collection = name

/-- What was asked. -/
def asked (h : List Noted) : List (String × LoggedCall) := h.map fun n => (n.fresh, n.call)

/-- What was answered. -/
def answers (h : List Noted) : List CallAnswer := h.map Noted.answer

theorem collection_of_mem_on (hn : n ∈ on name h) : n.collection = name :=
  of_decide_eq_true (List.mem_filter.1 hn).2

theorem on_eq_self (hh : ∀ n ∈ h, n.collection = name) : on name h = h :=
  List.filter_eq_self.2 fun n hn => decide_eq_true (hh n hn)

theorem on_cons_of_eq (hn : n.collection = name) : on name (n :: h) = n :: on name h :=
  List.filter_cons_of_pos (decide_eq_true hn)

theorem on_cons_of_ne (hn : n.collection ≠ name) : on name (n :: h) = on name h :=
  List.filter_cons_of_neg (by simpa using hn)

/-- Notes of one collection are known from what was asked and what was answered. -/
theorem zipWith_asked_answers (hh : ∀ n ∈ h, n.collection = name) :
    List.zipWith (fun a answer => ⟨name, a.1, a.2, answer⟩) (asked h) (answers h) = h := by
  induction h with
  | nil => rfl
  | cons n h ih =>
    obtain ⟨rfl, hrest⟩ := List.forall_mem_cons.1 hh
    exact congrArg (n :: ·) (ih hrest)

theorem on_eq_of_asked (hasked : asked (on name h) = asked (on name k))
    (hanswers : answers (on name h) = answers (on name k)) : on name h = on name k := by
  have hone : ∀ h : List Noted, ∀ n ∈ on name h, n.collection = name :=
    fun _ _ => collection_of_mem_on
  rw [← zipWith_asked_answers (hone h), ← zipWith_asked_answers (hone k), hasked, hanswers]

end Noted

/-! ### What a call depends on -/

theorem Collection.Rearranged.trans {c d e : Collection} (hd : c.Rearranged d)
    (he : d.Rearranged e) : c.Rearranged e :=
  ⟨he.name.trans hd.name, he.nextSeq.trans hd.nextSeq, he.entries.trans hd.entries⟩

theorem Collection.name_create (fresh : String) (record : Json) (c : Collection) :
    (c.create fresh record).2.name = c.name := by
  unfold create
  cases record.asObject? with
  | none => rfl
  | some fs =>
    cases hid : newId fresh fs with
    | error e => simp only [hid]
    | ok id =>
      simp only [hid]
      split <;> rfl

theorem Collection.name_update (id : String) (changes : Json) (c : Collection) :
    (c.update id changes).2.name = c.name := by
  unfold update
  cases changes.asObject? with
  | none => rfl
  | some fs => cases c.entry? id <;> rfl

namespace Store

variable {s t u : Store} {name other : String} {h k : List Noted}

theorem Rearranged.refl (s : Store) : s.Rearranged s := fun _ => .refl _

theorem Rearranged.trans (ht : s.Rearranged t) (hu : t.Rearranged u) : s.Rearranged u :=
  fun name => (ht name).trans (hu name)

/-- An answer depends on the collection and on the next identifier. -/
theorem answer_congr (hc : s.database.collection name = t.database.collection name)
    (hf : s.fresh = t.fresh) (c : LoggedCall) :
    (repository name).answer c s = (repository name).answer c t := by
  cases c <;>
    simp only [Repository.answer, repository, create, change, Database.change, hc, hf]

/-- So does what a call makes of its collection. -/
theorem collection_after_congr (hc : s.database.collection name = t.database.collection name)
    (hf : s.fresh = t.fresh) (c : LoggedCall) :
    ((repository name).after c s).database.collection name =
      ((repository name).after c t).database.collection name := by
  cases c <;>
    simp only [Repository.after, repository, create, change, Database.change,
      Database.collection_setCollection, if_true, hc, hf]

/-- A call leaves the other collections as they are. -/
theorem collection_after_of_ne (hne : other ≠ name) (c : LoggedCall) (s : Store) :
    ((repository name).after c s).database.collection other = s.database.collection other := by
  cases c <;>
    simp only [Repository.after, repository, create, change, Database.change,
      Database.collection_setCollection, if_neg hne]

/-- Collections keep their names. -/
theorem name_collection_after (c : LoggedCall) (s : Store) (other : String) :
    (((repository name).after c s).database.collection other).name =
      (s.database.collection other).name := by
  by_cases hname : other = name
  · subst hname
    cases c <;>
      simp only [Repository.after, repository, create, change, Database.change,
        Database.collection_setCollection, if_true, Collection.name_create,
        Collection.name_update, Collection.deleteById]
  · rw [collection_after_of_ne hname]

/-- **A call does to the ledger of its collection what the ledger answers to it**, and leaves the
other ledgers as they are. -/
theorem Sound.respond (hs : Sound s) (name : String) (c : LoggedCall) :
    s.Mirrors name ((repository name).answer c s, (repository name).after c s)
      ((s.ledger name).respond (s.database.collection name).name s.fresh c) := by
  have hread : ∀ f, (s.database.collection name).matching f = (s.ledger name).passing f :=
    fun f => (hs.collections name).matching_eq f
  cases c with
  | count f =>
    refine ⟨hs, ?_, rfl, fun _ _ => rfl⟩
    simp only [Repository.answer, repository, Ledger.respond, Collection.count_eq, hread]
  | findById id =>
    refine ⟨hs, ?_, rfl, fun _ _ => rfl⟩
    simp only [Repository.answer, repository, Ledger.respond, ledger,
      (hs.collections name).findById_eq]
  | find q =>
    refine ⟨hs, ?_, rfl, fun _ _ => rfl⟩
    simp only [Repository.answer, repository, Ledger.respond, Collection.find, hread]
  | create record =>
    obtain ⟨hsound, hanswer, hown, hothers⟩ := hs.create name record
    exact ⟨hsound, congrArg CallAnswer.created hanswer, hown, hothers⟩
  | update id changes =>
    obtain ⟨hsound, hanswer, hown, hothers⟩ := hs.update name id changes
    exact ⟨hsound, congrArg CallAnswer.updated hanswer, hown, hothers⟩
  | deleteById id =>
    obtain ⟨hsound, hanswer, hown, hothers⟩ := hs.deleteById name id
    exact ⟨hsound, congrArg CallAnswer.deleted hanswer, hown, hothers⟩

/-! ### Sessions -/

/-- A session: calls on any collections, with their notes, from one store to another. Before every
call, and at the end, entries may change places; what identifiers are generated is left open. -/
inductive Session : Store → List Noted → Store → Prop
  | done {s t : Store} : s.Rearranged t → Session s [] t
  | call {s t u : Store} {h : List Noted} (name : String) (c : LoggedCall) :
      s.Rearranged t → Session ((repository name).after c t) h u →
        Session s (⟨name, t.fresh, c, (repository name).answer c t⟩ :: h) u

theorem Session.of_rearranged (ht : s.Rearranged t) (hs : Session t h u) : Session s h u := by
  cases hs with
  | done hu => exact .done (ht.trans hu)
  | call name c hu hrest => exact .call name c (ht.trans hu) hrest

theorem Session.sound (hs : Session s h u) (hsound : Sound s) : Sound u := by
  induction hs with
  | done hr => exact hsound.rearranged hr
  | call name c hr _ ih => exact ih ((hsound.rearranged hr).after name c)

/-- **The calls on one collection can be told from the rest**: its ledger answers them as if they
were all there is, and that is also what the session leaves of it. -/
theorem Session.respondAll (hs : Session s h u) (hsound : Sound s) (name : String) :
    (s.ledger name).respondAll (s.database.collection name).name (Noted.asked (Noted.on name h)) =
      (Noted.answers (Noted.on name h), u.ledger name) := by
  induction hs with
  | done hr =>
    have hledger := (hsound.collections name).ledger_rearranged (hr name)
    exact congrArg (Prod.mk []) hledger.symm
  | @call s t u h called c hr _ ih =>
    have hledger : t.ledger name = s.ledger name :=
      (hsound.collections name).ledger_rearranged (hr name)
    obtain ⟨hafter, hanswer, hown, hothers⟩ := (hsound.rearranged hr).respond called c
    have hrest := ih hafter
    rw [name_collection_after, (hr name).name] at hrest
    by_cases hname : called = name
    · -- the call is answered from the ledger, and the rest of the session from what it leaves
      rw [Noted.on_cons_of_eq hname]
      subst hname
      rw [(hr called).name, hledger] at hanswer hown
      rw [hown] at hrest
      simp only [Noted.asked, Noted.answers, List.map_cons, Ledger.respondAll] at hrest hanswer ⊢
      rw [hrest, hanswer]
    · rw [hothers name (Ne.symm hname), hledger] at hrest
      rw [Noted.on_cons_of_ne hname]
      exact hrest

end Store

end EntityGraph
