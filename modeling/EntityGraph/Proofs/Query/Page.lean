import EntityGraph.Proofs.Collection.History
import EntityGraph.Proofs.Mutation.ReadBack
import EntityGraph.Proofs.Record.Sort
import EntityGraph.Proofs.Schema.RootNames

/-!
Lists and counts. The two lists of an entity answer the same page of one full result: the records
that pass the filter, stably sorted, as far as the order of the sort keys is transitive on them. The
page starts where the arguments say and is cut by the limit of the arguments and by the largest
limit that is configured. The count has a way of its own to the length of the full result.
-/

namespace EntityGraph

variable {σ : Type}

/-! ### Pages -/

section Pages

variable {α : Type} (skip limit : Option ℕ) (xs : List α)

theorem getElem?_page (i : ℕ) :
    (page skip limit xs)[i]? = if ∀ n ∈ limit, i < n then xs[skip.getD 0 + i]? else none := by
  cases limit <;> simp [page, List.getElem?_take]

theorem length_page :
    (page skip limit xs).length = limit.toList.foldr min (xs.length - skip.getD 0) := by
  cases limit <;> simp [page]

/-- Pages of one size, one after the other, are the start of the list. -/
theorem flatMap_page (n count : ℕ) :
    (List.range count).flatMap (fun i => page (some (i * n)) (some n) xs) =
      xs.take (count * n) := by
  induction count with
  | zero => simp
  | succ count ih =>
    rw [List.range_succ, List.flatMap_append, ih, Nat.succ_mul, List.take_add]
    simp [page]

/-- A page depends on where it starts, and not on how this is said. -/
theorem page_of_start {start : ℕ} (h : skip.getD 0 = start) :
    page skip limit xs = page (some start) limit xs := by
  unfold page
  rw [h, Option.getD_some]

end Pages

/-! ### Arguments -/

namespace Argument

variable {ks : FieldKinds} {args : Arguments} {name : String} {F : Filter} {S : List SortKey}
  {skip limit largest : Option ℕ}

/-- What the arguments say about a number that is not negative. -/
inductive Gives (args : Arguments) (name : String) : Option ℕ → Prop
  | absent (h : Fields.get? args name = none) : Gives args name none
  | null (h : Fields.get? args name = some .null) : Gives args name none
  | number (n : ℕ) (h : Fields.get? args name = some (.int n)) (hn : (n : ℤ) < Json.signedLimit) :
      Gives args name (some n)

/-- The arguments of a list are accepted, and say this. -/
structure Asks (ks : FieldKinds) (args : Arguments) (F : Filter) (S : List SortKey)
    (skip limit : Option ℕ) : Prop where
  filter : filterOf ks args = .ok F
  sort : sortOf ks args = .ok S
  skip : Gives args "skip" skip
  limit : Gives args "limit" limit

theorem signed?_natCast {n : ℕ} (hn : (n : ℤ) < Json.signedLimit) :
    signed? (.int n) = some (n : ℤ) := by
  have hlow : -Json.signedLimit ≤ (n : ℤ) :=
    le_trans (by decide : -Json.signedLimit ≤ 0) (Int.natCast_nonneg n)
  rw [signed?, if_pos ⟨hlow, hn⟩]

theorem count_of_signed? {v : Value} {n : ℕ} (hnull : v ≠ .null) (hv : signed? v = some (n : ℤ)) :
    count name (some v) = .ok n := by
  unfold count
  split
  · rename_i habsent
    cases habsent
  · rename_i hsome
    exact absurd (Option.some.inj hsome) hnull
  · rename_i w _ hsome
    obtain rfl := Option.some.inj hsome
    simp [hv]

theorem Gives.count_eq {n : Option ℕ} (h : Gives args name n) :
    count name (Fields.get? args name) = .ok n := by
  cases h with
  | absent h => rw [h, count]
  | null h => rw [h, count]
  | number n h hn =>
    rw [h]
    exact count_of_signed? (by simp) (signed?_natCast hn)

theorem Asks.findQuery_eq (h : Asks ks args F S skip limit) :
    findQuery ks largest args = .ok ⟨F, S, skip, clamp limit largest⟩ := by
  unfold findQuery
  rw [h.filter, h.sort, h.limit.count_eq, h.skip.count_eq]
  rfl

/-- A position is under the limit that is used if it is under both limits. -/
theorem forall_mem_clamp {i : ℕ} :
    (∀ n ∈ clamp limit largest, i < n) ↔ (∀ n ∈ limit, i < n) ∧ ∀ n ∈ largest, i < n := by
  cases limit <;> cases largest <;> simp [clamp]

theorem clamp_of_le {n : ℕ} (h : ∀ m ∈ largest, n ≤ m) : clamp (some n) largest = some n := by
  cases largest with
  | none => rfl
  | some m => exact congrArg some (min_eq_left (h m rfl))

theorem foldr_clamp (n : ℕ) :
    (clamp limit largest).toList.foldr min n = (limit.toList ++ largest.toList).foldr min n := by
  cases limit <;> cases largest <;> simp [clamp, min_assoc]

section

variable {α : Type} (skip : Option ℕ) (xs : List α)

theorem getElem?_page_clamp (i : ℕ) :
    (page skip (clamp limit largest) xs)[i]? =
      if (∀ n ∈ limit, i < n) ∧ ∀ n ∈ largest, i < n then xs[skip.getD 0 + i]? else none := by
  rw [getElem?_page]
  exact if_congr forall_mem_clamp rfl rfl

theorem length_page_clamp :
    (page skip (clamp limit largest) xs).length =
      (limit.toList ++ largest.toList).foldr min (xs.length - skip.getD 0) := by
  rw [length_page, foldr_clamp]

/-- A page is never longer than the largest limit. -/
theorem length_page_clamp_le {n : ℕ} (hn : n ∈ largest) :
    (page skip (clamp limit largest) xs).length ≤ n := by
  have hend : (page skip (clamp limit largest) xs)[n]? = none := by
    rw [getElem?_page_clamp, if_neg fun hall => lt_irrefl n (hall.2 n hn)]
  exact List.getElem?_eq_none_iff.1 hend

end

end Argument

/-! ### Records that pass -/

/-- The records of a collection that pass a filter. -/
def Store.matching (s : Store) (collection : String) (F : Filter) : List Json :=
  ((s.ledger collection).map Prod.snd).filter fun record => F.passes record

namespace Store.Sound

variable {s : Store} (h : s.Sound)
include h

theorem get?_idField {collection : String} {e : String × Json} (he : e ∈ s.ledger collection) :
    e.2.get? idField = some (.str e.1) := by
  obtain ⟨fs, hfs⟩ := (h.ledgers collection).keyed e he
  rw [hfs]
  rfl

/-- No record is stored twice, since each has its own identifier. -/
theorem nodup_records (collection : String) : ((s.ledger collection).map Prod.snd).Nodup := by
  have hids : ((s.ledger collection).map Prod.snd).map (fun r => r.get? idField) =
      (s.ledger collection).keys.map fun k => some (.str k) := by
    rw [Fields.keys, List.map_map, List.map_map]
    exact List.map_congr_left fun e he => h.get?_idField he
  have hdistinct : ((s.ledger collection).keys.map fun k => some (Json.str k)).Nodup :=
    (h.ledgers collection).distinct.map fun _ _ hkeys => Json.str.inj (Option.some.inj hkeys)
  exact List.Nodup.of_map _ (hids ▸ hdistinct)

theorem find_eq (collection : String) (q : FindQuery) :
    (s.database.collection collection).find q =
      page q.skip q.limit (sortRecords q.sort (s.matching collection q.filter)) := by
  rw [Collection.find, (h.collections collection).matching_eq]
  rfl

theorem count_eq (collection : String) (F : Filter) :
    (s.database.collection collection).count F = (s.matching collection F).length := by
  rw [Collection.count_eq, (h.collections collection).matching_eq]
  rfl

end Store.Sound

/-! ### Hosts in memory -/

namespace Host.InMemory

variable {h : Host σ} {view : σ → Store} {put : Store → σ → σ} (hh : h.InMemory view put)
  {e : Entity} {r : Repository σ} (he : h.catalog.get? e.aliasName = some e)
  (hr : h.repositories.get? e.aliasName = some r) {f : FieldDef} {args : Argument.Arguments}
  {F : Filter} {S : List SortKey} {t : σ} (context : Option RequestContext) (parent : Value)
include hh he hr

theorem resolve_count (hf : f.source = .query e.aliasName .count)
    (hargs : Argument.filterOf (.ofEntity e) args = .ok F) (ht : (view t).Sound) :
    (h.resolve context f parent args t).1 =
      .ok (some (.int ((view t).matching r.collection F).length)) := by
  unfold Host.resolve
  simp only [hf, hr, Resolver.query, Resolver.count, Host.kindsOf, he, hargs]
  rw [hh.bound e.aliasName r hr, Repository.within, Resolver.call_onPart]
  simp only [Resolver.call, Store.repository, ht.count_eq r.collection F]

theorem resolve_list (hf : f.source = .query e.aliasName .list) {skip limit : Option ℕ}
    (hargs : Argument.Asks (.ofEntity e) args F S skip limit) (ht : (view t).Sound) :
    (h.resolve context f parent args t).1 =
      .ok (some (.list ((page skip (Argument.clamp limit h.schema.settings.maxListLimit)
        (sortRecords S ((view t).matching r.collection F))).map Value.ofJson))) := by
  unfold Host.resolve
  simp only [hf, hr, Resolver.query, Resolver.list, Host.kindsOf, he, hargs.findQuery_eq]
  rw [hh.bound e.aliasName r hr, Repository.within, Resolver.call_onPart]
  simp only [Resolver.call, Store.repository, ht.find_eq]

/-- A list that is asked for so many records, and may show as many, answers a page of that size. -/
theorem resolve_page (hf : f.source = .query e.aliasName .list) {skip : Option ℕ} {start n : ℕ}
    (hargs : Argument.Asks (.ofEntity e) args F S skip (some n)) (hskip : skip.getD 0 = start)
    (hn : ∀ m ∈ h.schema.settings.maxListLimit, n ≤ m) (ht : (view t).Sound) :
    (h.resolve context f parent args t).1 =
      .ok (some (.list ((page (some start) (some n)
        (sortRecords S ((view t).matching r.collection F))).map Value.ofJson))) := by
  rw [hh.resolve_list he hr context parent hf hargs ht, Argument.clamp_of_le hn,
    page_of_start _ _ _ hskip]

end Host.InMemory

/-! ### Lists and counts -/

/-- The field is one of the two lists of the entity. -/
def Entity.IsList (e : Entity) (types : EntityTypes) (f : FieldDef) : Prop :=
  f ∈ e.queryFields types ∧
    (f.name = e.aliasName ++ "List" ∨ f.name = e.aliasName ++ "EntityList")

theorem Entity.IsList.source {e : Entity} {types : EntityTypes} {f : FieldDef}
    (h : e.IsList types f) : f.source = .query e.aliasName .list := by
  obtain ⟨hf, hname | hname⟩ := h
  · exact Entity.source_of_suffix hf hname (by decide)
  · exact Entity.source_of_suffix hf hname (by decide)

/-- **Lists are pages of one result, and the count is its length.** Let calls lead to a state, and
let arguments ask for a filter and for sort keys. The count is the number of records that match the
filter. Where the order of the keys is transitive on these records, they can be stably sorted in one
way, which is the full result. Both lists answer its elements from the position that is asked for,
up to the limit that is asked for and up to the largest one. So pages of one size, which may be read
in any states with the same records, are the start of the full result, or all of it. Where three
records break the order, there is no such result. -/
theorem lists_are_pages {h : Host σ} {view : σ → Store} {put : Store → σ → σ}
    (hh : h.InMemory view put) {e : Entity} (he : h.catalog.get? e.aliasName = some e)
    {r : Repository σ} (hr : h.repositories.get? e.aliasName = some r) {t : σ}
    (ht : (view t).Reachable) (F : Filter) (S : List SortKey) (types : EntityTypes)
    (context : Option RequestContext) (parent : Value) :
    let ks := FieldKinds.ofEntity e
    let largest := h.schema.settings.maxListLimit
    let records := ((view t).ledger r.collection).map Prod.snd
    let matching := records.filter fun record => F.passes record
    (∀ f ∈ e.queryFields types, f.name = e.aliasName ++ "Count" →
      ∀ args, Argument.filterOf ks args = .ok F →
        (h.resolve context f parent args t).1 = .ok (some (.int matching.length))) ∧
    (OrderedBy S matching → ∃ full, (∀ other, StablySorted S matching other ↔ other = full) ∧
      (∀ f, e.IsList types f → ∀ args skip limit, Argument.Asks ks args F S skip limit →
        ∃ L : List Json,
          (h.resolve context f parent args t).1 = .ok (some (.list (L.map Value.ofJson))) ∧
          (∀ i, L[i]? = if (∀ n ∈ limit, i < n) ∧ ∀ n ∈ largest, i < n then
            full[skip.getD 0 + i]? else none) ∧
          L.length = (limit.toList ++ largest.toList).foldr min (matching.length - skip.getD 0) ∧
          ∀ n ∈ largest, L.length ≤ n) ∧
      (∀ (n count : ℕ) (pages : ℕ → List Value), (∀ m ∈ largest, n ≤ m) →
        (∀ i < count, ∃ u f args skip, (view u).Reachable ∧
          (view u).ledger r.collection = (view t).ledger r.collection ∧ e.IsList types f ∧
          Argument.Asks ks args F S skip (some n) ∧ skip.getD 0 = i * n ∧
          (h.resolve context f parent args u).1 = .ok (some (.list (pages i)))) →
        (List.range count).flatMap pages = (full.take (count * n)).map Value.ofJson ∧
          (matching.length ≤ count * n →
            (List.range count).flatMap pages = full.map Value.ofJson))) ∧
    (∀ a b c, [a, b, c].Sublist matching → InOrder S a b → InOrder S b c → ¬InOrder S a c →
      ∀ full, ¬StablySorted S matching full) := by
  intro ks largest records matching
  refine ⟨fun f hf hname args hargs => ?_, fun hordered => ?_,
    fun a b c hsub hab hbc hac full => ?_⟩
  · have hsource : f.source = .query e.aliasName .count :=
      Entity.source_of_suffix hf hname (by decide)
    exact hh.resolve_count he hr context parent hsource hargs ht.sound
  · have hlength : (sortRecords S matching).length = matching.length :=
      (sortRecords_perm S matching).length_eq
    refine ⟨sortRecords S matching, fun other => stablySorted_iff hordered, ?_, ?_⟩
    · intro f hf args skip limit hargs
      refine ⟨_, hh.resolve_list he hr context parent hf.source hargs ht.sound,
        Argument.getElem?_page_clamp skip _, ?_, fun n => Argument.length_page_clamp_le skip _⟩
      rw [← hlength]
      exact Argument.length_page_clamp skip _
    · intro n count pages hn hpages
      have hpage : ∀ i ∈ List.range count, pages i =
          (page (some (i * n)) (some n) (sortRecords S matching)).map Value.ofJson := by
        intro i hi
        obtain ⟨u, f, args, skip, hu, hledger, hf, hargs, hskip, hanswer⟩ :=
          hpages i (List.mem_range.1 hi)
        have hpage := hh.resolve_page he hr context parent hf.source hargs hskip hn hu.sound
        -- the records that match are read off the ledger, so they are the same in both states
        have hmatching : (view u).matching r.collection F = matching := by
          rw [Store.matching, hledger]
        rw [hanswer, hmatching] at hpage
        exact Value.list.inj (Option.some.inj (Except.ok.inj hpage))
      have hall : (List.range count).flatMap pages =
          ((sortRecords S matching).take (count * n)).map Value.ofJson := by
        rw [List.flatMap_congr hpage, ← List.map_flatMap, flatMap_page]
      exact ⟨hall, fun hlen => by rw [hall, List.take_of_length_le (hlength.trans_le hlen)]⟩
  · have hnodup : matching.Nodup := (ht.sound.nodup_records r.collection).filter _
    exact not_stablySorted hnodup hsub hab hbc hac

/-- Two notes, of which lists show at most one. The note with a text is sorted before the other, so
the page from the second position on has the other. -/
theorem lists_are_pages_notes :
    let h : Host Store :=
      { noteHost with schema := .ofTypes [] { Settings.standard with maxListLimit := some 1 } }
    let args := [("sort", Value.object [("text", .item "DESC")]), ("skip", .int 1),
      ("limit", .int 5)]
    let first : Json := .obj [("_id", .str "n1")]
    let second : Json := .obj [("_id", .str "n2"), ("text", .str "b")]
    let keys : List SortKey := [⟨"text", .descending, .plain⟩]
    h.InMemory id (fun s _ => s) ∧ twoNotes.Reachable ∧ OrderedBy keys [first, second] ∧
      (∀ sorted, StablySorted keys [first, second] sorted ↔ sorted = [second, first]) ∧
      (∀ f ∈ (Entity.bare "note").queryFields noteTypes, f.name = "noteCount" →
        (h.resolve none f .null [("filter", .null)] twoNotes).1 = .ok (some (.int 2))) ∧
      (∀ f, (Entity.bare "note").IsList noteTypes f →
        ∃ L : List Json,
          (h.resolve none f .null args twoNotes).1 = .ok (some (.list (L.map Value.ofJson))) ∧
          L.length = 1 ∧ L[0]? = some first) := by
  intro h args first second keys
  have hh : h.InMemory id (fun s _ => s) :=
    ⟨noteHost_inMemory.view_put, noteHost_inMemory.bound, noteHost_inMemory.apart⟩
  have hmatching : (((id twoNotes).ledger (Store.repository "note").collection).map
      Prod.snd).filter (fun record => Filter.all.passes record) = [first, second] :=
    congrArg (fun l : Ledger => (l.map Prod.snd).filter fun _ => true) twoNotes_ledger
  have hordered : OrderedBy keys [first, second] := by
    unfold OrderedBy InOrder
    decide +kernel
  have hsorted : sortRecords keys [first, second] = [second, first] := by
    have hswap : compareRecords keys second first = .lt := by decide +kernel
    simp [sortRecords, sortByInsertion, insertLast, hswap]
  obtain ⟨hcount, hlists, -⟩ := lists_are_pages hh (e := .bare "note") rfl
    (r := Store.repository "note") rfl (t := twoNotes) twoNotes_reachable .all keys noteTypes none
    .null
  simp only [hmatching] at hcount hlists
  obtain ⟨full, hfull, hlist, -⟩ := hlists hordered
  obtain rfl : full = [second, first] :=
    ((hfull _).1 (sortRecords_stable hordered)).symm.trans hsorted
  refine ⟨hh, twoNotes_reachable, hordered, hfull, fun f hf hname => hcount f hf hname _ rfl,
    fun f hf => ?_⟩
  obtain ⟨L, hanswer, hget, hlength, -⟩ := hlist f hf args (some 1) (some 5)
    ⟨rfl, rfl, .number 1 rfl (by decide), .number 5 rfl (by decide)⟩
  exact ⟨L, hanswer, hlength, (hget 0).trans (if_pos (by decide))⟩

end EntityGraph
