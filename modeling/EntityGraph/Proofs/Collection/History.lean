import EntityGraph.Proofs.Collection.Refinement
import EntityGraph.Proofs.Record.Sort

/-!
Histories: writes on a collection, one after the other, between which its entries may change
places. A history that starts without records answers what the ledger answers, and leaves a
collection from which the ledger can be read.
-/

namespace EntityGraph

theorem Filter.passes_of_isAll {f : Filter} (h : f.isAll = true) (record : Json) :
    f.passes record = true := by
  cases f with
  | all => rfl
  | and | or | field => exact nomatch h

namespace Collection

variable {c d : Collection}

/-! ### Reading a ledger -/

theorem name_empty (name : String) : (empty name).name = name := rfl

/-- The records that pass a filter are those of the ledger, in its order. -/
theorem Sound.matching_eq (h : Sound c) (f : Filter) :
    c.matching f = (c.ledger.map Prod.snd).filter fun r => f.passes r := by
  have hsorted := mergeSort_older_eq (c.ordered_perm.filter fun e => f.passes e.record)
    (h.rise.sublist List.filter_sublist)
  rw [matching, hsorted, ledger, List.map_map, List.filter_map]
  rfl

/-- Counting gives the number of records that pass, whether it looks at them or not. -/
theorem count_eq (f : Filter) : c.count f = (c.matching f).length := by
  unfold count
  split
  · rename_i hall
    simp [matching, size, Filter.passes_of_isAll hall]
  · rfl

theorem Sound.find_everything (h : Sound c) : c.find .everything = c.ledger.map Prod.snd := by
  have hpass : ∀ r, Filter.passes r .all = true := fun _ => rfl
  simp only [find, FindQuery.everything, sortRecords_nil, h.matching_eq, hpass, page,
    List.filter_true]
  rfl

/-! ### Histories -/

/-- A history: writes with their answers, from one collection to another. Before every write, and
at the end, the entries may change places. -/
inductive History : Collection → List (Write × WriteAnswer) → Collection → Prop
  | done {c d : Collection} : c.Rearranged d → History c [] d
  | write {c d e : Collection} {h : List (Write × WriteAnswer)} (w : Write) :
      c.Rearranged d → History (d.perform w).2 h e → History c ((w, (d.perform w).1) :: h) e

/-- Any writes have a history. -/
theorem exists_history (c : Collection) (ws : List Write) :
    ∃ h d, History c h d ∧ h.map Prod.fst = ws := by
  induction ws generalizing c with
  | nil => exact ⟨[], c, .done (.refl c), rfl⟩
  | cons w ws ih =>
    obtain ⟨h, d, hist, hws⟩ := ih (c.perform w).2
    exact ⟨_, d, .write w (.refl c) hist, congrArg (w :: ·) hws⟩

/-- **A history does to a collection what its writes do to the ledger.** -/
theorem History.mirrors {h : List (Write × WriteAnswer)} (hist : History c h d) (hc : Sound c) :
    Sound d ∧ c.ledger.run c.name (h.map Prod.fst) = (h.map Prod.snd, d.ledger) := by
  induction hist with
  | done hr => exact ⟨hc.rearranged hr, by rw [hc.ledger_rearranged hr]; rfl⟩
  | @write c d e h w hr _ ih =>
    obtain ⟨hsound, hname, hanswer, hledger⟩ := (hc.rearranged hr).perform w
    rw [hc.ledger_rearranged hr, hr.name] at hanswer hledger
    obtain ⟨he, hrun⟩ := ih hsound
    rw [hname, hr.name, hledger] at hrun
    refine ⟨he, ?_⟩
    simp only [List.map_cons, Ledger.run, hrun, hanswer]

/-- **Collections refine ledgers.** Whatever writes are made on a collection that starts without
records, and wherever its entries stand in between, the answers are those of a ledger: one that
appends what is created, updates in place, deletes, and is otherwise left alone. The ledger is what
the collection lists and what it looks identifiers up in; its records start with the identifiers
they are stored under, no two of which are the same; and none of them is empty unless an empty one
was generated. -/
theorem history_keeps_ledger (name : String) {h : List (Write × WriteAnswer)} {c : Collection}
    (hist : History (.empty name) h c) :
    ∃ l : Ledger,
      Ledger.run name (h.map Prod.fst) [] = (h.map Prod.snd, l) ∧
      l.Distinct ∧
      c.find .everything = l.map Prod.snd ∧
      (∀ id, c.findById id = l.get? id) ∧
      (∀ e ∈ l, ∃ fs, e.2 = .obj ((idField, .str e.1) :: fs)) ∧
      ((∀ w ∈ h.map Prod.fst, w.Supplied) → ∀ e ∈ l, e.1 ≠ "") ∧
      (∀ id fresh fs, newId fresh fs = .ok id →
        Ledger.run name [.deleteById id, .create fresh (.obj fs)] l =
          ([.deleted (l.contains id), .created (.ok (stored id fs))],
            l.erase id ++ [(id, stored id fs)])) := by
  obtain ⟨hsound, hrun⟩ := hist.mirrors (.empty name)
  rw [ledger_empty, name_empty] at hrun
  have hlast : (Ledger.run name (h.map Prod.fst) []).2 = c.ledger := congrArg Prod.snd hrun
  have hwell : c.ledger.WellFormed := hlast ▸ Ledger.WellFormed.empty.run name (h.map Prod.fst)
  refine ⟨c.ledger, hrun, hwell.distinct, hsound.find_everything, hsound.findById_eq, hwell.keyed,
    fun hws e he hid => ?_, fun id fresh fs hid => ?_⟩
  · have hnone := Ledger.empty_notMem_run (l := []) List.not_mem_nil hws name
    rw [hlast] at hnone
    exact hnone (hid ▸ List.mem_map_of_mem he)
  · have hcreate : Ledger.entryFor name fresh (.obj fs) (c.ledger.erase id) =
        .ok (id, stored id fs) :=
      Ledger.entryFor_of_notMem hid (Fields.notMem_keys_erase c.ledger id)
    simp only [Ledger.run, Ledger.perform, Ledger.deleteById, Ledger.create, hcreate]

/-- A record is created, refused, updated, deleted and created again. -/
theorem history_keeps_ledger_notes :
    ∃ h c, History (.empty "notes") h c ∧
      h.map Prod.fst =
        [ .create "n1" (.obj [("text", .str "a")]), .create "n2" (.obj [("_id", .str "n0")]),
          .create "n3" (.obj [("_id", .str "n1")]),
          .update "n1" (.obj [("_id", .null), ("text", .str "b")]), .update "n4" (.obj []),
          .deleteById "n1", .create "n5" (.obj [("_id", .str "n1")]) ] ∧
      c.find .everything = [.obj [("_id", .str "n0")], .obj [("_id", .str "n1")]] := by
  obtain ⟨h, c, hist, hws⟩ := exists_history (.empty "notes") _
  refine ⟨h, c, hist, hws, ?_⟩
  obtain ⟨l, hrun, -, hfind, -⟩ := history_keeps_ledger "notes" hist
  rw [hws] at hrun
  have hl : l = [("n0", .obj [("_id", .str "n0")]), ("n1", .obj [("_id", .str "n1")])] :=
    (congrArg Prod.snd hrun).symm
  rw [hfind, hl]
  rfl

end Collection

end EntityGraph
