import EntityGraph.Proofs.Collection.History
import EntityGraph.Proofs.Value.Same
import Mathlib.Data.List.Induction

/-!
Updates of one record, made one after the other. What they leave behind can be said key by key: the
identifier stays, and every other key has the value that was written last, or else the one it had.
So it makes no difference to the record, as JSON, whether changes are made at once or one after the
other, nor in which order they are made when no two of them write the same key. Records and changes
are taken to be objects that repeat no key, as everything that is read from JSON is.
-/

namespace EntityGraph

/-! ### Merging one after the other -/

/-- The fields of a record after changes, merged into it one after the other. -/
def Fields.mergeAll (us : List (Fields Json)) (fs : Fields Json) : Fields Json :=
  us.foldl (fun gs u => Fields.insertAll gs (u.erase idField)) fs

/-- The value that the last of some changes writes under a key. -/
def lastWritten (us : List (Fields Json)) (key : String) : Option Json :=
  us.reverse.findSome? fun u => u.get? key

/-- No two of the changes write the same key, the identifier apart. -/
def KeysApart (us : List (Fields Json)) : Prop :=
  us.Pairwise fun u v => ∀ k, k ≠ idField → k ∈ u.keys → k ∉ v.keys

section

variable {us vs : List (Fields Json)} {fs : Fields Json} {k : String} {v : Json}

theorem lastWritten_concat (us : List (Fields Json)) (u : Fields Json) (k : String) :
    lastWritten (us ++ [u]) k = (u.get? k).or (lastWritten us k) := by
  rw [lastWritten, List.reverse_concat, List.findSome?_cons]
  cases u.get? k <;> rfl

theorem lastWritten_singleton (u : Fields Json) (k : String) : lastWritten [u] k = u.get? k := by
  rw [← List.nil_append [u], lastWritten_concat]
  exact Option.or_none

/-- **Every key has the value that was written last**, or else the one it had. -/
theorem Fields.get?_mergeAll (hus : ∀ u ∈ us, u.Distinct) (hk : k ≠ idField) (fs : Fields Json) :
    (mergeAll us fs).get? k = (lastWritten us k).or (fs.get? k) := by
  -- by induction on the changes that were made, the last of which may write the key
  induction us using List.reverseRecOn with
  | nil => rfl
  | append_singleton us u ih =>
    obtain ⟨hus, hu⟩ := List.forall_mem_append.1 hus
    have hlast := Fields.get?_insertAll ((List.forall_mem_singleton.1 hu).erase idField)
      (mergeAll us fs) k
    rw [Fields.get?_erase, if_neg hk, ih hus] at hlast
    rw [lastWritten_concat, Option.or_assoc, mergeAll, List.foldl_concat]
    exact hlast

/-- The identifier is left alone. -/
theorem Fields.get?_mergeAll_idField (us : List (Fields Json)) (fs : Fields Json) :
    (mergeAll us fs).get? idField = fs.get? idField := by
  induction us generalizing fs with
  | nil => rfl
  | cons u us ih =>
    exact (ih _).trans (Fields.get?_insertAll_of_notMem (Fields.notMem_keys_erase u idField) fs)

theorem Fields.distinct_mergeAll (hfs : (Json.obj fs).Distinct)
    (hus : ∀ u ∈ us, (Json.obj u).Distinct) : (Json.obj (mergeAll us fs)).Distinct := by
  induction us generalizing fs with
  | nil => exact hfs
  | cons u us ih =>
    obtain ⟨hu, hus⟩ := List.forall_mem_cons.1 hus
    refine ih ⟨hfs.1.insertAll _, Json.distinctFields_iff.2 fun f hf => ?_⟩ hus
    rcases Fields.mem_of_mem_insertAll hf with hf | hf
    · exact Json.distinctFields_iff.1 hfs.2 f hf
    · exact Json.distinctFields_iff.1 hu.2 f (List.mem_filter.1 hf).1

/-- Changes that write the same values last make the same of a record. -/
theorem Fields.same_mergeAll (hfs : (Json.obj fs).Distinct)
    (hus : ∀ u ∈ us, (Json.obj u).Distinct) (hvs : ∀ v ∈ vs, (Json.obj v).Distinct)
    (h : ∀ k, k ≠ idField → lastWritten us k = lastWritten vs k) :
    (Json.obj (mergeAll us fs)).same (.obj (mergeAll vs fs)) = true := by
  refine Json.same_of_get?_eq (distinct_mergeAll hfs hus) (distinct_mergeAll hfs hvs).1 fun k => ?_
  by_cases hk : k = idField
  · rw [hk, get?_mergeAll_idField, get?_mergeAll_idField]
  · rw [get?_mergeAll (fun u hu => (hus u hu).1) hk, get?_mergeAll (fun v hv => (hvs v hv).1) hk,
      h k hk]

/-- Where no two changes write the same key, none of them is written over. -/
theorem lastWritten_eq_some_iff (h : KeysApart us) (hk : k ≠ idField) :
    lastWritten us k = some v ↔ ∃ u ∈ us, u.get? k = some v := by
  have hone : ∀ u ∈ us, ∀ u' ∈ us, ∀ w w', u.get? k = some w → u'.get? k = some w' → w = w' := by
    have hne : us.Pairwise fun u u' => ∀ w w', u.get? k = some w → u'.get? k = some w' → False :=
      h.imp fun hne w w' hw hw' => hne k hk (List.mem_map_of_mem (Fields.mem_of_get? hw))
        (List.mem_map_of_mem (Fields.mem_of_get? hw'))
    refine List.Pairwise.forall_of_forall_of_flip (fun u _ w w' hw hw' => ?_)
      (hne.imp fun hno w w' hw hw' => (hno w w' hw hw').elim)
      (hne.imp fun hno w w' hw hw' => (hno w' w hw' hw).elim)
    exact Option.some.inj (hw.symm.trans hw')
  constructor
  · intro hv
    obtain ⟨u, hu, hget⟩ := List.exists_of_findSome?_eq_some hv
    exact ⟨u, List.mem_reverse.1 hu, hget⟩
  · rintro ⟨u, hu, hget⟩
    cases hlast : lastWritten us k with
    | none =>
      have hnone := List.findSome?_eq_none_iff.1 hlast u (List.mem_reverse.2 hu)
      exact absurd (hnone.symm.trans hget) (by simp)
    | some w =>
      obtain ⟨u', hu', hget'⟩ := List.exists_of_findSome?_eq_some hlast
      exact congrArg some (hone u' (List.mem_reverse.1 hu') u hu w v hget' hget)

/-- Where no two changes write the same key, their order makes no difference. -/
theorem lastWritten_perm (h : KeysApart us) (hvs : KeysApart vs) (hp : us.Perm vs)
    (hk : k ≠ idField) : lastWritten us k = lastWritten vs k := by
  refine Option.ext fun v => ?_
  rw [lastWritten_eq_some_iff h hk, lastWritten_eq_some_iff hvs hk]
  simp only [hp.mem_iff]

end

/-- Disjointness does not depend on the order. -/
theorem KeysApart.perm {us vs : List (Fields Json)} (h : KeysApart us) (hp : us.Perm vs) :
    KeysApart vs :=
  List.Pairwise.perm h hp fun hne k hk hv hu => hne k hk hu hv

/-! ### Ledgers -/

namespace Ledger

variable {before after : Ledger} {id : String} {r s : Json}

theorem get?_between (hb : id ∉ Fields.keys before) :
    Fields.get? (before ++ (id, r) :: after) id = some r := by
  rw [Fields.get?_append, Fields.get?_eq_none_iff.2 hb, Option.none_or, Fields.get?_cons]
  exact if_pos rfl

theorem replace_of_notMem {l : Ledger} (h : id ∉ l.keys) : l.replace id s = l := by
  have hsame : ∀ e ∈ l, (if e.1 = id then (id, s) else e) = e := fun e he =>
    if_neg fun hid : e.1 = id => h (hid ▸ List.mem_map_of_mem he)
  exact (List.map_congr_left hsame).trans (List.map_id l)

theorem replace_between (hb : id ∉ Fields.keys before) (ha : id ∉ Fields.keys after) :
    replace id s (before ++ (id, r) :: after) = before ++ (id, s) :: after := by
  have hsplit : replace id s (before ++ (id, r) :: after) =
      replace id s before ++ (id, s) :: replace id s after := by
    simp [replace]
  rw [hsplit, replace_of_notMem hb, replace_of_notMem ha]

/-- A record stands in one place of a ledger. -/
theorem exists_between {l : Ledger} (h : l.Distinct) (hr : l.get? id = some r) :
    ∃ before after, l = before ++ (id, r) :: after ∧ id ∉ Fields.keys before ∧
      id ∉ Fields.keys after := by
  obtain ⟨before, after, rfl⟩ := List.append_of_mem (Fields.mem_of_get? hr)
  rw [Fields.Distinct, Fields.keys, List.map_append, List.map_cons] at h
  obtain ⟨-, hafter, happart⟩ := List.nodup_append.1 h
  exact ⟨before, after, rfl, fun hmem => happart id hmem id List.mem_cons_self rfl,
    (List.nodup_cons.1 hafter).1⟩

/-- **Updates of a record change it in its place**, and nothing else. -/
theorem run_updates (name : String) (hb : id ∉ Fields.keys before) (ha : id ∉ Fields.keys after)
    (us : List (Fields Json)) (fs : Fields Json) :
    (Ledger.run name (us.map fun u => .update id (.obj u))
        (before ++ (id, .obj fs) :: after)).2 =
      before ++ (id, .obj (Fields.mergeAll us fs)) :: after := by
  induction us generalizing fs with
  | nil => rfl
  | cons u us ih =>
    have hstep : (Ledger.update id (.obj u) (before ++ (id, .obj fs) :: after)).2 =
        before ++ (id, Collection.merge u (.obj fs)) :: after := by
      simp only [update, Json.asObject?, get?_between hb, replace_between hb ha]
    simp only [List.map_cons, run, perform, hstep]
    exact ih _

end Ledger

/-! ### Collections -/

namespace Collection

variable {c d : Collection} {name id : String} {record : Json} {us : List (Fields Json)}
  {h : List (Write × WriteAnswer)}

/-- Updates of one record, made one after the other, lead from one collection to another. -/
def UpdatesTo (id : String) (us : List (Fields Json)) (c d : Collection) : Prop :=
  ∃ h, History c h d ∧ h.map Prod.fst = us.map fun u => .update id (.obj u)

/-- Updates can always be made. -/
theorem exists_updatesTo (id : String) (us : List (Fields Json)) (c : Collection) :
    ∃ d, UpdatesTo id us c d := by
  obtain ⟨h, d, hist, hws⟩ := exists_history c (us.map fun u => .update id (.obj u))
  exact ⟨d, h, hist, hws⟩

/-- What updates do to a record and to the list of all of them. -/
theorem UpdatesTo.merged {fs : Fields Json} (hupdates : UpdatesTo id us c d)
    (hist : History (.empty name) h c) (hrecord : c.findById id = some (.obj fs)) :
    d.findById id = some (.obj (Fields.mergeAll us fs)) ∧
      ∃ before after, c.find .everything = before ++ .obj fs :: after ∧
        d.find .everything = before ++ .obj (Fields.mergeAll us fs) :: after := by
  obtain ⟨hc, -⟩ := hist.mirrors (.empty name)
  obtain ⟨h', hist', hws⟩ := hupdates
  obtain ⟨hd, hrun⟩ := hist'.mirrors hc
  obtain ⟨before, after, hledger, hb, ha⟩ :=
    Ledger.exists_between hc.distinct_ledger ((hc.findById_eq id).symm.trans hrecord)
  rw [hws, hledger] at hrun
  have hlast : d.ledger = before ++ (id, .obj (Fields.mergeAll us fs)) :: after :=
    (congrArg Prod.snd hrun).symm.trans (Ledger.run_updates c.name hb ha us fs)
  refine ⟨?_, before.map Prod.snd, after.map Prod.snd, ?_, ?_⟩
  · rw [hd.findById_eq, hlast]
    exact Ledger.get?_between hb
  · rw [hc.find_everything, hledger, List.map_append]
    rfl
  · rw [hd.find_everything, hlast, List.map_append]
    rfl

/-- A stored record is an object with its identifier. -/
theorem History.fields_of_findById (hist : History (.empty name) h c)
    (hrecord : c.findById id = some record) :
    ∃ fs : Fields Json, record = .obj fs ∧ fs.get? idField = some (.str id) := by
  obtain ⟨hc, hrun⟩ := hist.mirrors (.empty name)
  rw [ledger_empty, name_empty] at hrun
  have hlast : (Ledger.run name (h.map Prod.fst) []).2 = c.ledger := congrArg Prod.snd hrun
  have hwell : c.ledger.WellFormed := hlast ▸ Ledger.WellFormed.empty.run name (h.map Prod.fst)
  have hmem := Fields.mem_of_get? ((hc.findById_eq id).symm.trans hrecord)
  obtain ⟨fs, hfs⟩ := hwell.keyed _ hmem
  exact ⟨_, hfs, if_pos rfl⟩

/-- **Updates of a record accumulate.** Whatever changes are made to a stored record one after the
other, the record keeps its identifier and its place among the others, and every other key has the
value of the last change that writes it, or else the one it had. Therefore two changes leave the
same record, as JSON, as one that is their union and prefers the second, and changes that write
different keys leave the same record in every order, and none of them is lost. -/
theorem updates_accumulate (hist : History (.empty name) h c)
    (hrecord : c.findById id = some record) :
    (∀ us d, (∀ u ∈ us, (Json.obj u).Distinct) → UpdatesTo id us c d →
      ∃ left, d.findById id = some left ∧
        (∃ before after, c.find .everything = before ++ record :: after ∧
          d.find .everything = before ++ left :: after) ∧
        record.get? idField = some (.str id) ∧ left.get? idField = some (.str id) ∧
        ∀ k, k ≠ idField → left.get? k = (lastWritten us k).or (record.get? k)) ∧
    (∀ (u v w : Fields Json) d e, record.Distinct → (Json.obj u).Distinct →
      (Json.obj v).Distinct → (Json.obj w).Distinct →
      (∀ k, k ≠ idField → w.get? k = (v.get? k).or (u.get? k)) →
      UpdatesTo id [u, v] c d → UpdatesTo id [w] c e →
      ∃ left right, d.findById id = some left ∧ e.findById id = some right ∧
        left.same right = true) ∧
    (∀ us vs d e, record.Distinct → (∀ u ∈ us, (Json.obj u).Distinct) → KeysApart us →
      us.Perm vs → UpdatesTo id us c d → UpdatesTo id vs c e →
      ∃ left right, d.findById id = some left ∧ e.findById id = some right ∧
        left.same right = true ∧
        ∀ u ∈ us, ∀ k v, k ≠ idField → u.get? k = some v →
          left.get? k = some v ∧ right.get? k = some v) := by
  obtain ⟨fs, rfl, hid⟩ := hist.fields_of_findById hrecord
  refine ⟨fun us d hus hd => ?_, fun u v w d e hdistinct hu hv hw hunion hd he => ?_,
    fun us vs d e hdistinct hus hapart hperm hd he => ?_⟩
  · obtain ⟨hleft, hplace⟩ := hd.merged hist hrecord
    exact ⟨_, hleft, hplace, hid, (Fields.get?_mergeAll_idField us fs).trans hid,
      fun k hk => Fields.get?_mergeAll (fun u hu => (hus u hu).1) hk fs⟩
  · refine ⟨_, _, (hd.merged hist hrecord).1, (he.merged hist hrecord).1,
      Fields.same_mergeAll hdistinct ?_ ?_ fun k hk => ?_⟩
    · exact List.forall_mem_cons.2 ⟨hu, List.forall_mem_singleton.2 hv⟩
    · exact List.forall_mem_singleton.2 hw
    · exact (lastWritten_concat [u] v k).trans (by
        rw [lastWritten_singleton, lastWritten_singleton, hunion k hk])
  · have hvs : ∀ v ∈ vs, (Json.obj v).Distinct := fun v hv => hus v (hperm.mem_iff.2 hv)
    have hlast : ∀ k, k ≠ idField → lastWritten us k = lastWritten vs k :=
      fun k hk => lastWritten_perm hapart (hapart.perm hperm) hperm hk
    refine ⟨_, _, (hd.merged hist hrecord).1, (he.merged hist hrecord).1,
      Fields.same_mergeAll hdistinct hus hvs hlast, fun u hu k v hk hget => ?_⟩
    have hkept : lastWritten us k = some v := (lastWritten_eq_some_iff hapart hk).2 ⟨u, hu, hget⟩
    constructor
    · refine (Fields.get?_mergeAll (fun u hu => (hus u hu).1) hk fs).trans ?_
      rw [hkept, Option.some_or]
    · refine (Fields.get?_mergeAll (fun v hv => (hvs v hv).1) hk fs).trans ?_
      rw [← hlast k hk, hkept, Option.some_or]

/-- A product is renamed and priced twice, and restocked and priced in both orders. -/
theorem updates_accumulate_product :
    ∃ h c, History (.empty "product") h c ∧
      c.findById "p1" =
        some (.obj [("_id", .str "p1"), ("name", .str "pen"), ("stock", .int 3)]) ∧
      (∃ d e left right,
        UpdatesTo "p1" [[("_id", .null), ("price", .int 2), ("name", .str "ink")],
          [("price", .int 5)]] c d ∧
        UpdatesTo "p1" [[("name", .str "ink"), ("price", .int 5)]] c e ∧
        d.findById "p1" = some left ∧ e.findById "p1" = some right ∧ left.same right = true ∧
        left.get? "_id" = some (.str "p1") ∧ left.get? "price" = some (.int 5) ∧
        left.get? "stock" = some (.int 3)) ∧
      ∃ d e left right,
        UpdatesTo "p1" [[("price", .int 2)], [("_id", .str "p2"), ("stock", .int 1)]] c d ∧
        UpdatesTo "p1" [[("_id", .str "p2"), ("stock", .int 1)], [("price", .int 2)]] c e ∧
        d.findById "p1" = some left ∧ e.findById "p1" = some right ∧ left.same right = true ∧
        right.get? "stock" = some (.int 1) := by
  have hist := History.write (.create "p1" (.obj [("name", .str "pen"), ("stock", .int 3)]))
    (.refl (.empty "product")) (.done (.refl _))
  have hrecord : (perform (.create "p1" (.obj [("name", .str "pen"), ("stock", .int 3)]))
      (.empty "product")).2.findById "p1" =
      some (.obj [("_id", .str "p1"), ("name", .str "pen"), ("stock", .int 3)]) := rfl
  have hdistinct :
      (Json.obj [("_id", .str "p1"), ("name", .str "pen"), ("stock", .int 3)]).Distinct := by
    simp [Json.Distinct, Json.DistinctFields, Fields.Distinct, Fields.keys]
  obtain ⟨hlast, hunion, horder⟩ := updates_accumulate hist hrecord
  refine ⟨_, _, hist, hrecord, ?_, ?_⟩
  · obtain ⟨d, hd⟩ := exists_updatesTo "p1"
      [[("_id", .null), ("price", .int 2), ("name", .str "ink")], [("price", .int 5)]] _
    obtain ⟨e, he⟩ := exists_updatesTo "p1" [[("name", .str "ink"), ("price", .int 5)]] _
    obtain ⟨left, hleft, -, -, hid, hget⟩ := hlast _ d
      (by simp [Json.Distinct, Json.DistinctFields, Fields.Distinct, Fields.keys]) hd
    obtain ⟨left', right, hleft', hright, hsame⟩ := hunion _ _ _ d e hdistinct
      (by simp [Json.Distinct, Json.DistinctFields, Fields.Distinct, Fields.keys])
      (by simp [Json.Distinct, Json.DistinctFields, Fields.Distinct, Fields.keys])
      (by simp [Json.Distinct, Json.DistinctFields, Fields.Distinct, Fields.keys])
      (fun k hk => by grind [Fields.get?_cons, Fields.get?_nil, idField]) hd he
    obtain rfl := Option.some.inj (hleft'.symm.trans hleft)
    exact ⟨d, e, left', right, hd, he, hleft, hright, hsame, hid, hget "price" (by decide),
      hget "stock" (by decide)⟩
  · obtain ⟨d, hd⟩ := exists_updatesTo "p1"
      [[("price", .int 2)], [("_id", .str "p2"), ("stock", .int 1)]] _
    obtain ⟨e, he⟩ := exists_updatesTo "p1"
      [[("_id", .str "p2"), ("stock", .int 1)], [("price", .int 2)]] _
    obtain ⟨left, right, hleft, hright, hsame, hkept⟩ := horder _ _ d e hdistinct
      (by simp [Json.Distinct, Json.DistinctFields, Fields.Distinct, Fields.keys])
      (by simp +contextual [KeysApart, Fields.keys, idField]) (.swap _ _ _) hd he
    exact ⟨d, e, left, right, hd, he, hleft, hright, hsame,
      (hkept _ (.tail _ (.head _)) "stock" _ (by decide) rfl).2⟩

end Collection

end EntityGraph
