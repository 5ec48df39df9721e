import EntityGraph.Proofs.Collection.Ledger
import Mathlib.Data.List.Nodup

/-!
Collections keep ledgers. The entries of a collection stand in any order, and may change places
between two calls; their sequence numbers put them in the order in which they were created. Seen
in this order they are a ledger, and every call does to the collection what it does to the ledger.
-/

namespace EntityGraph.Collection

variable {c d : Collection}

/-! ### The order of creation -/

/-- The entries in the order of their sequence numbers. -/
def ordered (c : Collection) : List Entry := c.entries.mergeSort older

/-- The ledger that a collection keeps. -/
def ledger (c : Collection) : Ledger := c.ordered.map fun e => (e.id, e.record)

theorem ledger_empty (name : String) : (empty name).ledger = [] := by
  simp [ledger, ordered, empty]

theorem older_trans (a b e : Entry) (hab : older a b = true) (hbe : older b e = true) :
    older a e = true := by
  simp only [older, decide_eq_true_eq] at *
  omega

theorem older_total (a b : Entry) : (older a b || older b a) = true := by
  simp only [older, Bool.or_eq_true, decide_eq_true_eq]
  omega

/-- Entries whose numbers rise are what sorting makes of them in any other order. -/
theorem mergeSort_older_eq {es fs : List Entry} (hp : fs.Perm es)
    (hrise : fs.Pairwise fun a b => a.seq < b.seq) : es.mergeSort older = fs := by
  have hnumbers : (fs.map Entry.seq).Nodup :=
    List.pairwise_map.2 (hrise.imp fun h => Nat.ne_of_lt h)
  have hsorted : (es.mergeSort older).Pairwise fun a b => older a b = true :=
    List.pairwise_mergeSort older_trans older_total es
  have hperm : (es.mergeSort older).Perm fs := (List.mergeSort_perm es older).trans hp.symm
  -- two sorted lists of the same entries can only differ where numbers are equal
  refine List.Perm.eq_of_pairwise (fun a b ha hb hab hba => ?_) hsorted
    (hrise.imp fun h => by simpa [older] using Nat.le_of_lt h) hperm
  simp only [older, decide_eq_true_eq] at hab hba
  exact List.inj_on_of_nodup_map hnumbers (hperm.mem_iff.1 ha) hb (Nat.le_antisymm hab hba)

theorem ordered_perm (c : Collection) : c.ordered.Perm c.entries := List.mergeSort_perm _ _

theorem ordered_eq {es : List Entry} (hp : es.Perm c.entries)
    (hrise : es.Pairwise fun a b => a.seq < b.seq) : c.ordered = es := mergeSort_older_eq hp hrise

theorem keys_ledger (c : Collection) : Fields.keys c.ledger = c.ordered.map Entry.id := by
  simp only [Fields.keys, ledger, List.map_map]
  rfl

theorem mem_keys_ledger {id : String} :
    id ∈ Fields.keys c.ledger ↔ id ∈ c.entries.map Entry.id := by
  rw [keys_ledger]
  exact (c.ordered_perm.map Entry.id).mem_iff

/-! ### Sound collections -/

/-- **What holds of a collection between two calls**: no identifier and no sequence number occurs
twice, and every sequence number has been handed out. -/
structure Sound (c : Collection) : Prop where
  ids : (c.entries.map Entry.id).Nodup
  numbers : (c.entries.map Entry.seq).Nodup
  handedOut : ∀ e ∈ c.entries, e.seq < c.nextSeq

/-- A collection with the same entries in other places. -/
structure Rearranged (c d : Collection) : Prop where
  name : d.name = c.name
  nextSeq : d.nextSeq = c.nextSeq
  entries : d.entries.Perm c.entries

theorem Rearranged.refl (c : Collection) : Rearranged c c := ⟨rfl, rfl, .refl _⟩

theorem entry?_isSome_iff {id : String} :
    (c.entry? id).isSome = true ↔ id ∈ c.entries.map Entry.id := by
  unfold entry?
  simp

namespace Sound

theorem empty (name : String) : Sound (.empty name) :=
  ⟨List.nodup_nil, List.nodup_nil, List.forall_mem_nil _⟩

variable (h : Sound c)
include h

theorem rise : c.ordered.Pairwise fun a b => a.seq < b.seq := by
  have hsorted : c.ordered.Pairwise fun a b => older a b = true :=
    List.pairwise_mergeSort older_trans older_total c.entries
  have hne : c.ordered.Pairwise fun a b => a.seq ≠ b.seq :=
    List.pairwise_map.1 ((c.ordered_perm.map Entry.seq).nodup_iff.2 h.numbers)
  refine (hsorted.and hne).imp fun hab => ?_
  simp only [older, decide_eq_true_eq] at hab
  exact Nat.lt_of_le_of_ne hab.1 hab.2

theorem rearranged (hd : c.Rearranged d) : Sound d :=
  ⟨(hd.entries.map Entry.id).nodup_iff.2 h.ids, (hd.entries.map Entry.seq).nodup_iff.2 h.numbers,
    fun e he => hd.nextSeq ▸ h.handedOut e (hd.entries.mem_iff.1 he)⟩

/-- The places of the entries do not show in the ledger. -/
theorem ledger_rearranged (hd : c.Rearranged d) : d.ledger = c.ledger := by
  rw [ledger, ledger, ordered_eq (c.ordered_perm.trans hd.entries.symm) h.rise]

theorem distinct_ledger : c.ledger.Distinct := by
  rw [Fields.Distinct, keys_ledger]
  exact (c.ordered_perm.map Entry.id).nodup_iff.2 h.ids

/-- Looking up an identifier finds its record in the ledger. -/
theorem findById_eq (id : String) : c.findById id = c.ledger.get? id := by
  unfold findById
  cases hentry : c.entry? id with
  | none =>
    refine (Fields.get?_eq_none_iff.2 fun hmem => ?_).symm
    rw [mem_keys_ledger, ← entry?_isSome_iff, hentry] at hmem
    exact absurd hmem (by simp)
  | some e =>
    have hid : e.id = id := by simpa using List.find?_some hentry
    have hmem : e ∈ c.ordered := c.ordered_perm.mem_iff.2 (List.mem_of_find?_eq_some hentry)
    exact (Fields.get?_of_mem h.distinct_ledger (hid ▸ List.mem_map_of_mem hmem)).symm

end Sound

/-! ### Writes -/

/-- Performs a write. -/
def perform : Write → Collection → WriteAnswer × Collection
  | .create fresh record, c => (.created (c.create fresh record).1, (c.create fresh record).2)
  | .update id changes, c => (.updated (c.update id changes).1, (c.update id changes).2)
  | .deleteById id, c => (.deleted (c.deleteById id).1, (c.deleteById id).2)

/-- A step on a collection does what a step on its ledger does. -/
structure Mirrors {α : Type} (c : Collection) (r : α × Collection) (l : α × Ledger) : Prop where
  sound : Sound r.2
  name : r.2.name = c.name
  answer : r.1 = l.1
  ledger : r.2.ledger = l.2

theorem ledger_eq {es : List Entry} (hp : es.Perm d.entries)
    (hrise : es.Pairwise fun a b => a.seq < b.seq) :
    d.ledger = es.map fun e => (e.id, e.record) := by
  rw [ledger, ordered_eq hp hrise]

namespace Sound

variable (h : Sound c)
include h

/-- A new entry takes the next sequence number, and comes last. -/
theorem append {e : Entry} (hid : e.id ∉ Fields.keys c.ledger) (hseq : e.seq = c.nextSeq) :
    Sound { c with entries := e :: c.entries, nextSeq := c.nextSeq + 1 } ∧
      ledger { c with entries := e :: c.entries, nextSeq := c.nextSeq + 1 } =
        c.ledger ++ [(e.id, e.record)] := by
  have hlast : ∀ e' ∈ c.entries, e'.seq < e.seq := fun e' he' => hseq ▸ h.handedOut e' he'
  refine ⟨⟨?_, ?_, ?_⟩, ?_⟩
  · exact List.nodup_cons.2 ⟨fun hmem => hid (mem_keys_ledger.2 hmem), h.ids⟩
  · refine List.nodup_cons.2 ⟨fun hmem => ?_, h.numbers⟩
    obtain ⟨e', he', hsame⟩ := List.mem_map.1 hmem
    exact absurd hsame (Nat.ne_of_lt (hlast e' he'))
  · refine List.forall_mem_cons.2 ⟨hseq ▸ Nat.lt_succ_self _, fun e' he' => ?_⟩
    exact Nat.lt_succ_of_lt (h.handedOut e' he')
  · have hperm : (c.ordered ++ [e]).Perm (e :: c.entries) :=
      (List.perm_append_singleton _ _).trans (c.ordered_perm.cons _)
    have hrise : (c.ordered ++ [e]).Pairwise fun a b => a.seq < b.seq :=
      List.pairwise_append.2 ⟨h.rise, List.pairwise_singleton _ _, fun a ha b hb =>
        List.mem_singleton.1 hb ▸ hlast a (c.ordered_perm.mem_iff.1 ha)⟩
    rw [ledger_eq hperm hrise, List.map_append]
    rfl

theorem create (fresh : String) (record : Json) :
    Mirrors c (c.create fresh record) (c.ledger.create c.name fresh record) := by
  unfold Collection.create Ledger.create Ledger.entryFor
  cases record.asObject? with
  | none => exact ⟨h, rfl, rfl, rfl⟩
  | some fs =>
    cases hid : newId fresh fs with
    | error e =>
      simp only [hid]
      exact ⟨h, rfl, rfl, rfl⟩
    | ok id =>
      by_cases hmem : id ∈ Fields.keys c.ledger
      · have hsome : (c.entry? id).isSome = true :=
          entry?_isSome_iff.2 (mem_keys_ledger.1 hmem)
        simp only [hid, hsome, hmem, if_true]
        -- the attempt has used up a sequence number
        exact ⟨⟨h.ids, h.numbers, fun e he => Nat.lt_succ_of_lt (h.handedOut e he)⟩, rfl, rfl, rfl⟩
      · have hnone : (c.entry? id).isSome = false :=
          Bool.eq_false_iff.2 fun hs => hmem (mem_keys_ledger.2 (entry?_isSome_iff.1 hs))
        simp only [hid, hnone, hmem, if_false, Bool.false_eq_true]
        obtain ⟨hsound, hledger⟩ := h.append (e := ⟨id, c.nextSeq, stored id fs⟩) hmem rfl
        exact ⟨hsound, rfl, rfl, hledger⟩

/-- Entries that are changed keep their places if they keep their numbers. -/
theorem map_entries {f : Entry → Entry} (hid : ∀ e, (f e).id = e.id)
    (hseq : ∀ e, (f e).seq = e.seq) :
    Sound { c with entries := c.entries.map f } ∧
      ledger { c with entries := c.entries.map f } =
        (c.ordered.map f).map fun e => (e.id, e.record) := by
  have hids : (c.entries.map f).map Entry.id = c.entries.map Entry.id := by
    rw [List.map_map]
    exact List.map_congr_left fun e _ => hid e
  have hnumbers : (c.entries.map f).map Entry.seq = c.entries.map Entry.seq := by
    rw [List.map_map]
    exact List.map_congr_left fun e _ => hseq e
  refine ⟨⟨hids ▸ h.ids, hnumbers ▸ h.numbers, fun e he => ?_⟩, ?_⟩
  · obtain ⟨e', he', rfl⟩ := List.mem_map.1 he
    exact hseq e' ▸ h.handedOut e' he'
  · refine ledger_eq (c.ordered_perm.map f) (List.pairwise_map.2 ?_)
    exact h.rise.imp fun hab => by rwa [hseq, hseq]

theorem update (id : String) (changes : Json) :
    Mirrors c (c.update id changes) (c.ledger.update id changes) := by
  unfold Collection.update Ledger.update
  rw [← h.findById_eq, findById]
  cases changes.asObject? with
  | none => exact ⟨h, rfl, rfl, rfl⟩
  | some fs =>
    cases c.entry? id with
    | none => exact ⟨h, rfl, rfl, rfl⟩
    | some e =>
      obtain ⟨hsound, hledger⟩ := h.map_entries
        (f := fun e' => if e'.id = id then { e' with record := merge fs e.record } else e')
        (fun e' => by split <;> rfl) (fun e' => by split <;> rfl)
      refine ⟨hsound, rfl, rfl, hledger.trans ?_⟩
      simp only [Ledger.replace, Collection.ledger, List.map_map]
      refine List.map_congr_left fun e' _ => ?_
      by_cases hid : e'.id = id <;> simp [hid]

theorem deleteById (id : String) :
    Mirrors c (c.deleteById id) (c.ledger.deleteById id) := by
  have hsub : (c.entries.filter fun e => e.id ≠ id).Sublist c.entries := List.filter_sublist
  refine ⟨⟨h.ids.sublist (hsub.map _), h.numbers.sublist (hsub.map _),
    fun e he => h.handedOut e (hsub.subset he)⟩, rfl, ?_, ?_⟩
  · refine Bool.eq_iff_iff.2 ?_
    exact entry?_isSome_iff.trans (mem_keys_ledger.symm.trans Fields.contains_iff.symm)
  · have hledger := ledger_eq (d := (c.deleteById id).2) (c.ordered_perm.filter _)
      (h.rise.sublist List.filter_sublist)
    rw [hledger, Ledger.deleteById, Fields.erase, Collection.ledger, List.filter_map]
    rfl

/-- **A write does to a collection what it does to its ledger.** -/
theorem perform (w : Write) :
    Mirrors c (c.perform w) (c.ledger.perform c.name w) := by
  cases w with
  | create fresh record =>
    obtain ⟨hsound, hname, hanswer, hledger⟩ := h.create fresh record
    exact ⟨hsound, hname, congrArg WriteAnswer.created hanswer, hledger⟩
  | update id changes =>
    obtain ⟨hsound, hname, hanswer, hledger⟩ := h.update id changes
    exact ⟨hsound, hname, congrArg WriteAnswer.updated hanswer, hledger⟩
  | deleteById id =>
    obtain ⟨hsound, hname, hanswer, hledger⟩ := h.deleteById id
    exact ⟨hsound, hname, congrArg WriteAnswer.deleted hanswer, hledger⟩

end Sound

end EntityGraph.Collection
