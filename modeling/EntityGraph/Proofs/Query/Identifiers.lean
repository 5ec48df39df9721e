import EntityGraph.Proofs.Filter.Identifiers
import EntityGraph.Proofs.Query.Page
import Mathlib.Data.List.Count

/-!
Integers as identifiers. A mutation takes an integer for its digits, and the record is stored under
these. A filter compares the integer as it stands, and finds no record by it. So the two forms of
an identifier are one to mutations, and they are one to queries only while no record is stored
under the digits.
-/

namespace EntityGraph

variable {σ : Type}

/-! ### Records with an integer as their identifier -/

namespace Resolver

variable {args args' : Argument.Arguments}

theorem withTextId_insert_digits {fs : Fields Json} {n : ℤ}
    (h : fs.get? idField = some (.int n)) :
    withTextId (.obj (fs.insert idField (.str (digits n)))) = withTextId (.obj fs) := by
  have hwritten : Fields.get? (fs.insert idField (.str (digits n))) idField =
      some (.str (digits n)) := by
    rw [Fields.get?_insert, if_pos rfl]
  simp only [withTextId, h, hwritten, textId, Fields.insert_insert]
  rfl

theorem recordOf_insert_digits {fs : Fields Value} {n : ℤ}
    (hrecord : Fields.get? args "record" = some (.object fs))
    (hid : fs.get? idField = some (.int n)) :
    recordOf (Fields.insert args "record" (.object (fs.insert idField (.str (digits n))))) =
      recordOf args := by
  have hjson : Fields.get? (Value.fieldsToJson fs) idField = some (.int n) := by
    rw [Value.get?_fieldsToJson, hid]
    rfl
  simp only [recordOf, Fields.get?_insert, if_pos, hrecord, Value.toJson,
    Value.fieldsToJson_insert]
  rw [withTextId_insert_digits hjson]

/-- A mutation sees of its arguments only the record and the identifier that it reads from them. -/
theorem mutation_congr (hrecord : recordOf args' = recordOf args) (hid : idOf? args' = idOf? args)
    (check : PolicyCheck σ) (context : Option RequestContext) (aliasName : String)
    (r : Repository σ) (kind : MutationKind) :
    mutation check context aliasName r kind args' =
      mutation check context aliasName r kind args := by
  cases kind <;>
    simp only [mutation, target?, addressed?, write, create, update, remove, hrecord, hid]

end Resolver

/-! ### Filters that agree on a ledger -/

namespace Store

/-- The identifiers of a collection. -/
def ids (s : Store) (collection : String) : Set String := {k | k ∈ (s.ledger collection).keys}

namespace Sound

variable {s : Store} (h : s.Sound) {collection : String} {F G : Filter}
include h

theorem matching_congr (hFG : F.AgreeOn (Json.IdIn (s.ids collection)) G) :
    (s.database.collection collection).matching F =
      (s.database.collection collection).matching G := by
  rw [(h.collections collection).matching_eq, (h.collections collection).matching_eq]
  refine List.filter_congr fun record hrecord => hFG record ?_
  obtain ⟨e, he, rfl⟩ := List.mem_map.1 hrecord
  exact ⟨e.1, List.mem_map_of_mem he, h.get?_idField he⟩

theorem count_congr (hFG : F.AgreeOn (Json.IdIn (s.ids collection)) G) :
    (s.database.collection collection).count F = (s.database.collection collection).count G := by
  rw [Collection.count_eq, Collection.count_eq, h.matching_congr hFG]

theorem find_congr (hFG : F.AgreeOn (Json.IdIn (s.ids collection)) G) (sort : List SortKey)
    (skip limit : Option ℕ) :
    (s.database.collection collection).find ⟨F, sort, skip, limit⟩ =
      (s.database.collection collection).find ⟨G, sort, skip, limit⟩ := by
  rw [Collection.find, Collection.find, h.matching_congr hFG]

/-- The number of records that pass a filter that looks at nothing but identifiers. -/
theorem length_matching {p : String → Bool}
    (hp : ∀ record k, record.get? idField = some (.str k) → F.passes record = p k) :
    (s.matching collection F).length = (s.ledger collection).keys.countP p := by
  rw [Store.matching, ← List.countP_eq_length_filter, Fields.keys, List.countP_map, List.countP_map]
  refine List.countP_congr fun e he => ?_
  rw [Function.comp, Function.comp, hp e.2 e.1 (h.get?_idField he)]

end Sound

end Store

/-! ### Queries with filters that agree -/

/-- Queries for lists that differ in nothing but filters that agree. -/
theorem Argument.findQuery_alike {P : Json → Prop} {ks : FieldKinds} {args : Arguments}
    {v w : Value} (hargs : Fields.get? args "filter" = some v)
    (h : Alike (Filter.AgreeOn P) (filter ks v) (filter ks w)) (largest : Option ℕ) :
    Alike (fun q q' => q.filter.AgreeOn P q'.filter ∧ q' = { q with filter := q'.filter })
      (findQuery ks largest args) (findQuery ks largest (Fields.insert args "filter" w)) := by
  have hother : ∀ key, key ≠ "filter" →
      Fields.get? (Fields.insert args "filter" w) key = Fields.get? args key := by
    intro key hkey
    rw [Fields.get?_insert, if_neg (Ne.symm hkey)]
  have hwritten : filterOf ks (Fields.insert args "filter" w) = filter ks w := by
    rw [filterOf, Fields.get?_insert, if_pos rfl]
  have hsort : sortOf ks (Fields.insert args "filter" w) = sortOf ks args := by
    rw [sortOf, hother "sort" (by decide), sortOf]
  unfold findQuery
  rw [hwritten, hsort, hother "limit" (by decide), hother "skip" (by decide)]
  rw [filterOf, hargs]
  simp only
  generalize filter ks v = x at h
  generalize filter ks w = y at h
  cases h with
  | error e => exact .error e
  | ok hFG =>
    cases sortOf ks args with
    | error e => exact .error e
    | ok S =>
      cases count "limit" (Fields.get? args "limit") with
      | error e => exact .error e
      | ok limit =>
        cases count "skip" (Fields.get? args "skip") with
        | error e => exact .error e
        | ok skip => exact .ok ⟨hFG, rfl⟩

theorem Resolver.call_congr {α : Type} {c d : Call σ α} {t : σ} (h : c t = d t)
    (f : α → Option Value) : call f c t = call f d t := by
  rw [call, call, h]

namespace Host.InMemory

variable {h : Host σ} {view : σ → Store} {put : Store → σ → σ} (hh : h.InMemory view put)
  {aliasName : String} {r : Repository σ} (hr : h.repositories.get? aliasName = some r) {t : σ}
  (ht : (view t).Sound) {F G : Filter}
  (hFG : F.AgreeOn (Json.IdIn ((view t).ids r.collection)) G)
include hh hr ht

section

include hFG

theorem count_congr : r.count F t = r.count G t := by
  rw [hh.bound aliasName r hr]
  simp only [Repository.within, Repository.onPart, Store.repository, ht.count_congr hFG]

theorem find_congr (sort : List SortKey) (skip limit : Option ℕ) :
    r.find ⟨F, sort, skip, limit⟩ t = r.find ⟨G, sort, skip, limit⟩ t := by
  rw [hh.bound aliasName r hr]
  simp only [Repository.within, Repository.onPart, Store.repository,
    ht.find_congr hFG sort skip limit]

end

/-- A query sees of its filter only which of the stored records it lets pass. -/
theorem query_congr {ks : FieldKinds} {v w : Value} {args : Argument.Arguments}
    (hargs : Fields.get? args "filter" = some v)
    (hvw : Alike (Filter.AgreeOn (Json.IdIn ((view t).ids r.collection)))
      (Argument.filter ks v) (Argument.filter ks w))
    (largest : Option ℕ) (kind : QueryKind) :
    Resolver.query ks largest r kind (Fields.insert args "filter" w) t =
      Resolver.query ks largest r kind args t := by
  cases kind with
  | count =>
    simp only [Resolver.query, Resolver.count, Argument.filterOf, Fields.get?_insert, if_pos, hargs]
    generalize Argument.filter ks v = x at hvw
    generalize Argument.filter ks w = y at hvw
    cases hvw with
    | error e => rfl
    | ok hFG => exact (Resolver.call_congr (hh.count_congr hr ht hFG) _).symm
  | findById =>
    have hid : Resolver.idOf? (Fields.insert args "filter" w) = Resolver.idOf? args := by
      rw [Resolver.idOf?, Fields.get?_insert, if_neg (by decide), Resolver.idOf?]
    simp only [Resolver.query, Resolver.findById, hid]
  | list =>
    have hquery := Argument.findQuery_alike hargs hvw largest
    simp only [Resolver.query, Resolver.list]
    generalize Argument.findQuery ks largest args = x at hquery
    generalize Argument.findQuery ks largest (Fields.insert args "filter" w) = y at hquery
    cases hquery with
    | error e => rfl
    | ok hq =>
      obtain ⟨hFG, hrest⟩ := hq
      refine (Resolver.call_congr ?_ _).symm
      rw [hrest]
      exact hh.find_congr hr ht hFG _ _ _
  | singleton => rfl

end Host.InMemory

/-! ### One operator on identifiers -/

namespace Argument

/-- The filter argument of one operator on identifiers. -/
def onId (o : String × Value) : Value := .object [(idField, .object [o])]

/-- The operators that ask for the records with an identifier. -/
def having (x : Value) : List (String × Value) := [("eq", x), ("in", .list [x])]

/-- The operators that ask for the records without it. -/
def lacking (x : Value) : List (String × Value) := [("ne", x), ("nin", .list [x])]

variable {x : Value} {o : String × Value}

theorem filter_onId {ks : FieldKinds} {c : Condition} (hc : condition o.1 o.2 = .ok (some c)) :
    filter ks (onId o) = .ok (.field idField c (ks.kind idField)) := by
  have hoperators : operatorFilters idField (ks.kind idField) [o] =
      .ok [.field idField c (ks.kind idField)] := by
    simp only [operatorFilters, hc, Except.map]
  simp only [onId, filter, filterParts, fieldFilters, hoperators]
  rfl

theorem condition_having (ho : o ∈ having x) :
    ∃ c, condition o.1 o.2 = .ok (some c) ∧
      ∀ kind k, c.holds kind (.str k) = ValueKind.equal kind (.str k) x.toJson := by
  rcases List.mem_pair.1 ho with rfl | rfl
  · exact ⟨.eq x.toJson, rfl, fun _ _ => rfl⟩
  · exact ⟨.oneOf [x.toJson], rfl, fun kind k => Bool.or_false _⟩

theorem condition_lacking (ho : o ∈ lacking x) :
    ∃ c, condition o.1 o.2 = .ok (some c) ∧
      ∀ kind k, c.holds kind (.str k) = !ValueKind.equal kind (.str k) x.toJson := by
  rcases List.mem_pair.1 ho with rfl | rfl
  · exact ⟨.ne x.toJson, rfl, fun _ _ => rfl⟩
  · exact ⟨.noneOf [x.toJson], rfl, fun kind k => congrArg not (Bool.or_false _)⟩

variable {w : ℤ → String} {n : ℤ}

theorem written_having (ho : o ∈ having (.int n)) :
    ∃ o' ∈ having (.str (w n)), written w (onId o) = onId o' := by
  rcases List.mem_pair.1 ho with rfl | rfl
  · exact ⟨_, List.mem_cons_self, rfl⟩
  · exact ⟨_, List.mem_cons_of_mem _ List.mem_cons_self, rfl⟩

theorem written_lacking (ho : o ∈ lacking (.int n)) :
    ∃ o' ∈ lacking (.str (w n)), written w (onId o) = onId o' := by
  rcases List.mem_pair.1 ho with rfl | rfl
  · exact ⟨_, List.mem_cons_self, rfl⟩
  · exact ⟨_, List.mem_cons_of_mem _ List.mem_cons_self, rfl⟩

end Argument

/-- How often an identifier occurs in a ledger. -/
theorem Ledger.countP_eq {l : Ledger} (h : l.Distinct) (d : String) :
    l.keys.countP (fun k => decide (k = d)) = if d ∈ l.keys then 1 else 0 :=
  List.Nodup.count h

theorem Ledger.countP_ne {l : Ledger} (h : l.Distinct) (d : String) :
    l.keys.countP (fun k => !decide (k = d)) = l.length - if d ∈ l.keys then 1 else 0 := by
  have hsum := l.keys.length_eq_countP_add_countP fun k => decide (k = d)
  have hlength : l.keys.length = l.length := List.length_map _
  simp only [decide_eq_true_eq, decide_not, countP_eq h d] at hsum
  omega

namespace Host.InMemory

variable {h : Host σ} {view : σ → Store} {put : Store → σ → σ} (hh : h.InMemory view put)
  {e : Entity} {r : Repository σ} (he : h.catalog.get? e.aliasName = some e)
  (hr : h.repositories.get? e.aliasName = some r) {f : FieldDef}
  (hf : f.source = .query e.aliasName .count) {t : σ} (ht : (view t).Sound)
include hh he hr hf ht

theorem resolve_count_onId {o : String × Value} {c : Condition}
    (hc : Argument.condition o.1 o.2 = .ok (some c)) {p : String → Bool}
    (hp : ∀ k, c.holds ((FieldKinds.ofEntity e).kind idField) (.str k) = p k)
    (context : Option RequestContext) (parent : Value) :
    (h.resolve context f parent [("filter", Argument.onId o)] t).1 =
      .ok (some (.int (((view t).ledger r.collection).keys.countP p))) := by
  have hargs : Argument.filterOf (.ofEntity e) [("filter", Argument.onId o)] =
      .ok (.field idField c ((FieldKinds.ofEntity e).kind idField)) := Argument.filter_onId hc
  have hpasses : ∀ record k, record.get? idField = some (.str k) →
      Filter.passes record (.field idField c ((FieldKinds.ofEntity e).kind idField)) = p k := by
    intro record k hid
    rw [Filter.passes, Record.valueAt_idField hid, hp]
  rw [hh.resolve_count he hr context parent hf hargs ht, ht.length_matching hpasses]

theorem resolve_count_having {x : Value} {o : String × Value} (ho : o ∈ Argument.having x)
    {p : String → Bool}
    (hp : ∀ k, ((FieldKinds.ofEntity e).kind idField).equal (.str k) x.toJson = p k)
    (context : Option RequestContext) (parent : Value) :
    (h.resolve context f parent [("filter", Argument.onId o)] t).1 =
      .ok (some (.int (((view t).ledger r.collection).keys.countP p))) := by
  obtain ⟨c, hc, hholds⟩ := Argument.condition_having ho
  have hcp : ∀ k, c.holds ((FieldKinds.ofEntity e).kind idField) (.str k) = p k := fun k =>
    (hholds _ k).trans (hp k)
  exact hh.resolve_count_onId he hr hf ht hc hcp context parent

theorem resolve_count_lacking {x : Value} {o : String × Value} (ho : o ∈ Argument.lacking x)
    {p : String → Bool}
    (hp : ∀ k, ((FieldKinds.ofEntity e).kind idField).equal (.str k) x.toJson = p k)
    (context : Option RequestContext) (parent : Value) :
    (h.resolve context f parent [("filter", Argument.onId o)] t).1 =
      .ok (some (.int (((view t).ledger r.collection).keys.countP fun k => !p k))) := by
  obtain ⟨c, hc, hholds⟩ := Argument.condition_lacking ho
  have hcp : ∀ k, c.holds ((FieldKinds.ofEntity e).kind idField) (.str k) = !p k := fun k =>
    (hholds _ k).trans (congrArg not (hp k))
  exact hh.resolve_count_onId he hr hf ht hc hcp context parent

end Host.InMemory

/-- A mutation reads the identifier of its record alike from an integer and from its digits. -/
theorem Host.resolve_digits (h : Host σ) {e : Entity} {r : Repository σ}
    (hr : h.repositories.get? e.aliasName = some r) {types : EntityTypes} {f : FieldDef}
    (hf : f ∈ e.mutationFields types) {args fs : Fields Value} {n : ℤ}
    (hrecord : Fields.get? args "record" = some (.object fs))
    (hid : fs.get? idField = some (.int n)) (context : Option RequestContext) (parent : Value)
    (t : σ) :
    h.resolve context f parent
        (Fields.insert args "record" (.object (fs.insert idField (.str (digits n))))) t =
      h.resolve context f parent args t := by
  obtain ⟨p, -, -, hsource⟩ := Entity.mutationFields_cases hf
  have hother : Resolver.idOf?
      (Fields.insert args "record" (.object (fs.insert idField (.str (digits n))))) =
        Resolver.idOf? args := by
    rw [Resolver.idOf?, Fields.get?_insert, if_neg (by decide), Resolver.idOf?]
  rw [h.resolve_mutation hsource hr, h.resolve_mutation hsource hr,
    Resolver.mutation_congr (Resolver.recordOf_insert_digits hrecord hid) hother]

/-- A query answers alike where the integers of its filter are written as texts that are equal to
no identifier. -/
theorem Host.InMemory.resolve_written {h : Host σ} {view : σ → Store} {put : Store → σ → σ}
    (hh : h.InMemory view put) {e : Entity} (he : h.catalog.get? e.aliasName = some e)
    {r : Repository σ} (hr : h.repositories.get? e.aliasName = some r) {types : EntityTypes}
    {f : FieldDef} (hf : f ∈ e.queryFields types) {t : σ} (ht : (view t).Sound)
    {args : Fields Value} {v : Value} (hargs : Fields.get? args "filter" = some v)
    {w : ℤ → String} (hw : ∀ n, Argument.Compares v n →
      Unequal ((FieldKinds.ofEntity e).kind idField) ((view t).ids r.collection) w n)
    (context : Option RequestContext) (parent : Value) :
    h.resolve context f parent (Fields.insert args "filter" (Argument.written w v)) t =
      h.resolve context f parent args t := by
  obtain ⟨p, -, -, hsource⟩ := Entity.queryFields_cases hf
  have hvw := Argument.filter_written hw
  unfold Host.resolve
  simp only [hsource, hr, Host.kindsOf, he]
  exact hh.query_congr hr ht hargs hvw _ p.2

/-- A text is unequal to all identifiers of a set where it is digits that are none of them. -/
theorem unequal_digits_iff {kind : ValueKind} {ids : Set String} {n : ℤ} :
    Unequal kind ids digits n ↔ digits n ∉ ids := by
  simp only [Unequal, kind.equal_digits, decide_eq_false_iff_not]
  exact ⟨fun h hmem => h _ hmem rfl, fun h k hk heq => h (heq ▸ hk)⟩

/-- **An integer names a record to mutations, and none to filters.** Whatever calls led to a state,
a mutation does the same when the identifier of its record is an integer and when it is the digits
of it. But wherever a filter compares an integer with identifiers, under `AND` and `OR` too, every
query answers as it does for any text in its place that is equal to no identifier. So the digits
stand for the integer as long as no record is stored under them; and the count of one operator
differs by the record that is. -/
theorem integers_name_no_record {h : Host σ} {view : σ → Store} {put : Store → σ → σ}
    (hh : h.InMemory view put) {e : Entity} (he : h.catalog.get? e.aliasName = some e)
    {r : Repository σ} (hr : h.repositories.get? e.aliasName = some r) {t : σ}
    (ht : (view t).Reachable) (types : EntityTypes) (context : Option RequestContext)
    (parent : Value) :
    let kind := (FieldKinds.ofEntity e).kind idField
    let records := (view t).ledger r.collection
    let ids := (view t).ids r.collection
    (∀ f ∈ e.mutationFields types, ∀ args (fs : Fields Value) n,
      Fields.get? args "record" = some (.object fs) → fs.get? idField = some (.int n) →
        h.resolve context f parent
            (Fields.insert args "record" (.object (fs.insert idField (.str (digits n))))) t =
          h.resolve context f parent args t) ∧
    (∀ f ∈ e.queryFields types, ∀ args v, Fields.get? args "filter" = some v →
      (∀ w, (∀ n, Argument.Compares v n → Unequal kind ids w n) →
        h.resolve context f parent (Fields.insert args "filter" (Argument.written w v)) t =
          h.resolve context f parent args t) ∧
      ((∀ n, Argument.Compares v n → digits n ∉ records.keys) →
        h.resolve context f parent (Fields.insert args "filter" (Argument.written digits v)) t =
          h.resolve context f parent args t)) ∧
    (∀ f ∈ e.queryFields types, f.name = e.aliasName ++ "Count" → ∀ n,
      let count (v : Value) := (h.resolve context f parent [("filter", v)] t).1
      let found := if digits n ∈ records.keys then 1 else 0
      (∀ o ∈ Argument.having (.int n),
        count (Argument.onId o) = .ok (some (.int 0)) ∧
          count (Argument.written digits (Argument.onId o)) = .ok (some (.int (found : ℕ)))) ∧
      (∀ o ∈ Argument.lacking (.int n),
        count (Argument.onId o) = .ok (some (.int records.length)) ∧
          count (Argument.written digits (Argument.onId o)) =
            .ok (some (.int (records.length - found : ℕ))))) := by
  intro kind records ids
  refine ⟨?_, ?_, ?_⟩
  · intro f hf args fs n hrecord hid
    exact h.resolve_digits hr hf hrecord hid context parent t
  · intro f hf args v hargs
    refine ⟨fun w hw => hh.resolve_written he hr hf ht.sound hargs hw context parent,
      fun hnone => ?_⟩
    have hdigits : ∀ n, Argument.Compares v n → Unequal kind ids digits n := fun n hn =>
      unequal_digits_iff.2 (hnone n hn)
    exact hh.resolve_written he hr hf ht.sound hargs hdigits context parent
  · intro f hf hname n count found
    have hsource : f.source = .query e.aliasName .count :=
      Entity.source_of_suffix hf hname (by decide)
    have hdistinct := (ht.sound.ledgers r.collection).distinct
    have hlength : records.keys.length = records.length := List.length_map _
    have hint : ∀ k, kind.equal (.str k) (Value.int n).toJson = false := fun k =>
      kind.equal_str_int k n
    have hdigits : ∀ k, kind.equal (.str k) (Value.str (digits n)).toJson =
        decide (k = digits n) := fun k => kind.equal_digits k n
    refine ⟨fun o ho => ⟨?_, ?_⟩, fun o ho => ⟨?_, ?_⟩⟩
    · have hcount := hh.resolve_count_having he hr hsource ht.sound ho hint context parent
      rw [List.countP_false] at hcount
      exact hcount
    · obtain ⟨o', ho', hwritten⟩ := Argument.written_having (w := digits) ho
      have hcount := hh.resolve_count_having he hr hsource ht.sound ho' hdigits context parent
      rw [Ledger.countP_eq hdistinct] at hcount
      rw [hwritten]
      exact hcount
    · have hcount := hh.resolve_count_lacking he hr hsource ht.sound ho hint context parent
      rw [Bool.not_false, List.countP_true, hlength] at hcount
      exact hcount
    · obtain ⟨o', ho', hwritten⟩ := Argument.written_lacking (w := digits) ho
      have hcount := hh.resolve_count_lacking he hr hsource ht.sound ho' hdigits context parent
      rw [Ledger.countP_ne hdistinct] at hcount
      rw [hwritten]
      exact hcount

/-- A note with digits as its identifier. -/
def noteOfDigits : Store :=
  (Store.repository "note").after (.create (.obj [("_id", .str "42")])) (.start fun _ => "n1")

theorem noteOfDigits_reachable : noteOfDigits.Reachable := .call "note" _ (.start _)

theorem noteOfDigits_ledger :
    noteOfDigits.ledger "note" = [("42", .obj [("_id", .str "42")])] := by
  have hstart := Store.Sound.start fun _ => "n1"
  refine (hstart.create "note" (.obj [("_id", .str "42")])).own.trans ?_
  rw [Store.ledger_start]
  rfl

/-- The note is updated by the integer, and counted by its digits only. An integer that no note has
may be written as digits inside a disjunction. -/
theorem integers_name_no_record_note :
    let search (seven : Value) : Value := .object [("OR", .list
      [.object [("_id", .object [("in", .list [seven])])],
        .object [("text", .object [("eq", .int 42)])]])]
    noteHost.InMemory id (fun s _ => s) ∧ noteOfDigits.Reachable ∧
      (∀ f ∈ (Entity.bare "note").mutationFields noteTypes,
        noteHost.resolve none f .null [("record", .object [("_id", .str "42")])] noteOfDigits =
          noteHost.resolve none f .null [("record", .object [("_id", .int 42)])] noteOfDigits) ∧
      ∀ f ∈ (Entity.bare "note").queryFields noteTypes,
        noteHost.resolve none f .null [("filter", search (.str "7"))] noteOfDigits =
            noteHost.resolve none f .null [("filter", search (.int 7))] noteOfDigits ∧
          (f.name = "noteCount" →
            (noteHost.resolve none f .null [("filter", Argument.onId ("eq", .int 42))]
                noteOfDigits).1 = .ok (some (.int 0)) ∧
              (noteHost.resolve none f .null [("filter", Argument.onId ("eq", .str "42"))]
                noteOfDigits).1 = .ok (some (.int 1))) := by
  intro search
  have hkeys : ((id noteOfDigits).ledger (Store.repository "note").collection).keys = ["42"] :=
    congrArg Fields.keys noteOfDigits_ledger
  obtain ⟨hwrites, hfilters, hcounts⟩ := integers_name_no_record noteHost_inMemory
    (e := .bare "note") rfl (r := Store.repository "note") rfl (t := noteOfDigits)
    noteOfDigits_reachable noteTypes none .null
  simp only [hkeys] at hfilters hcounts
  refine ⟨noteHost_inMemory, noteOfDigits_reachable, fun f hf => ?_,
    fun f hf => ⟨?_, fun hname => ?_⟩⟩
  · exact hwrites f hf [("record", .object [("_id", .int 42)])] [("_id", .int 42)] 42 rfl rfl
  · refine (hfilters f hf [("filter", search (.int 7))] _ rfl).2 fun n hn => ?_
    have hseven : n = 7 := by
      simpa [search, Argument.compares_object, idField, Argument.andKey, Argument.orKey,
        Argument.listed, Argument.equalities, Argument.operands] using hn
    rw [hseven]
    decide
  · exact (hcounts f hf hname 42).1 ("eq", .int 42) List.mem_cons_self

end EntityGraph
