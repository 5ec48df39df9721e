import EntityGraph.Query.Form
import Mathlib.Data.Nat.Notation

/-!
Written queries read back. Every filter, whatever it is built from, and every list of sort keys is
read from its JSON form as it was written, and so is a query whose counts fit 64 bits. Reading
accepts more forms than writing makes, but only such queries; what it leaves of a form is
therefore what it leaves of the form written again.
-/

namespace EntityGraph

/-! ### Kinds and conditions -/

theorem ValueKind.ofJson?_toJson (kind : ValueKind) : ofJson? kind.toJson = some kind := by
  cases kind <;> rfl

theorem Condition.ofOperator?_operands (c : Condition) :
    ofOperator? c.operator c.operands = some c := by
  cases c <;> rfl

theorem Condition.ofJson?_toJson (c : Condition) : ofJson? c.toJson = some c :=
  c.ofOperator?_operands

/-! ### Filters -/

namespace Filter

theorem fieldOfJson?_toJson (name : String) (c : Condition) (kind : ValueKind) :
    fieldOfJson? [("field", .str name), ("condition", c.toJson), ("kind", kind.toJson)] =
      some (.field name c kind) := by
  have hcondition : Fields.get? [("field", .str name), ("condition", c.toJson),
      ("kind", kind.toJson)] "condition" = some c.toJson := rfl
  have hkind : Fields.get? [("field", .str name), ("condition", c.toJson),
      ("kind", kind.toJson)] "kind" = some kind.toJson := rfl
  have hname : Fields.get? [("field", .str name), ("condition", c.toJson),
      ("kind", kind.toJson)] "field" = some (.str name) := rfl
  simp only [fieldOfJson?, hname, hcondition, hkind, ValueKind.ofField?, Option.bind_eq_bind,
    Option.bind_some, Json.asString?, c.ofJson?_toJson, kind.ofJson?_toJson, Option.pure_def]

mutual

/-- **Every filter is read from its JSON form.** -/
theorem ofJson?_toJson : ∀ f : Filter, ofJson? f.toJson = some f
  | .all => rfl
  | .and fs => by
    rw [toJson, ofJson?, if_pos rfl, listOfJson?_listToJson fs, Option.map_some]
  | .or fs => by
    have htag : "Or" ≠ "And" := by decide
    rw [toJson, ofJson?, if_neg htag, if_pos rfl, listOfJson?_listToJson fs, Option.map_some]
  | .field name c kind => by
    rw [toJson, ofJson?, if_pos rfl, fieldOfJson?_toJson name c kind]

theorem listOfJson?_listToJson : ∀ fs : List Filter, listOfJson? (listToJson fs) = some fs
  | [] => rfl
  | f :: fs => by
    simp only [listToJson, listOfJson?, ofJson?_toJson f, listOfJson?_listToJson fs]

end

end Filter

/-! ### Sort keys -/

theorem SortDirection.ofJson?_toJson (d : SortDirection) : ofJson? d.toJson = some d := by
  cases d <;> rfl

namespace SortKey

theorem ofJson?_toJson (k : SortKey) : ofJson? k.toJson = some k := by
  have hfield : Fields.get? [("field", .str k.field), ("direction", k.direction.toJson),
      ("kind", k.kind.toJson)] "field" = some (.str k.field) := rfl
  have hdirection : Fields.get? [("field", .str k.field), ("direction", k.direction.toJson),
      ("kind", k.kind.toJson)] "direction" = some k.direction.toJson := rfl
  have hkind : Fields.get? [("field", .str k.field), ("direction", k.direction.toJson),
      ("kind", k.kind.toJson)] "kind" = some k.kind.toJson := rfl
  simp only [ofJson?, toJson, Json.fieldsOf?, hfield, hdirection, hkind, ValueKind.ofField?,
    Option.bind_eq_bind, Option.bind_some, Json.asString?, k.direction.ofJson?_toJson,
    k.kind.ofJson?_toJson, Option.pure_def]

theorem listOfJson?_toJson (ks : List SortKey) :
    listOfJson? (.arr (ks.map toJson)) = some ks := by
  have hall : (ks.map toJson).mapM ofJson? = some ks := by
    induction ks with
    | nil => rfl
    | cons k ks ih =>
      rw [List.map_cons, List.mapM_cons, k.ofJson?_toJson, ih]
      rfl
  exact hall

end SortKey

/-! ### Counts -/

/-- A count, if there is one, fits 64 bits. -/
def CountFits (count : Option ℕ) : Prop := ∀ n, count = some n → (n : Int) < Json.unsignedLimit

theorem Json.asUnsigned?_lt {v : Json} {n : ℕ} (h : v.asUnsigned? = some n) :
    (n : Int) < unsignedLimit := by
  cases v with
  | int m =>
    rw [asUnsigned?] at h
    split at h
    · rename_i hm
      obtain rfl := Option.some.inj h
      omega
    · cases h
  | _ => cases h

theorem Json.asUnsigned?_int {n : ℕ} (h : (n : Int) < unsignedLimit) :
    (Json.int n).asUnsigned? = some n := by
  rw [asUnsigned?, if_pos ⟨by omega, h⟩, Int.toNat_natCast]

theorem Json.asUnsigned?_of_optionalCount? {v : Json} {n : ℕ}
    (h : optionalCount? (some v) = some (some n)) : v.asUnsigned? = some n := by
  cases v with
  | null => cases h
  | _ => simpa only [optionalCount?, Option.map_eq_some_iff, Option.some.injEq,
      exists_eq_right] using h

theorem Json.countFits_of_optionalCount? {field : Option Json} {count : Option ℕ}
    (h : optionalCount? field = some count) : CountFits count := by
  rintro n rfl
  cases field with
  | none => cases h
  | some v => exact asUnsigned?_lt (asUnsigned?_of_optionalCount? h)

theorem Json.optionalCount?_int {n : ℕ} (h : (n : Int) < unsignedLimit) :
    optionalCount? (some (.int n)) = some (some n) := by
  rw [optionalCount?, asUnsigned?_int h, Option.map_some]
  exact fun hnull => nomatch hnull

/-- The field of a count is read as the count, and no field as no count. -/
theorem optionalCount?_countField {key : String} {count : Option ℕ} (h : CountFits count) :
    Json.optionalCount? (Fields.get? (countField key count) key) = some count := by
  cases count with
  | none => rfl
  | some n =>
    have hget : Fields.get? (countField key (some n)) key = some (.int n) := if_pos rfl
    rw [hget, Json.optionalCount?_int (h n rfl)]

/-! ### Queries -/

namespace FindQuery

/-- The counts of a query fit 64 bits. -/
structure Fits (q : FindQuery) : Prop where
  skip : CountFits q.skip
  limit : CountFits q.limit

/-- The fields of a written query. -/
def fields (q : FindQuery) : Fields Json :=
  ("filter", q.filter.toJson) :: sortField q.sort ++ countField "skip" q.skip ++
    countField "limit" q.limit

theorem get?_countField_ne {key other : String} (h : key ≠ other) (count : Option ℕ) :
    Fields.get? (countField key count) other = none := by
  cases count with
  | none => rfl
  | some n => exact if_neg h

theorem get?_sortField_ne {other : String} (h : "sort" ≠ other) (ks : List SortKey) :
    Fields.get? (sortField ks) other = none := by
  cases ks with
  | nil => rfl
  | cons k ks => exact if_neg h

section

variable (q : FindQuery)

theorem get?_fields (key : String) :
    Fields.get? q.fields key =
      ((((if "filter" = key then some q.filter.toJson else none).or
        (Fields.get? (sortField q.sort) key)).or
        (Fields.get? (countField "skip" q.skip) key)).or
        (Fields.get? (countField "limit" q.limit) key)) := by
  have hcons : Fields.get? (("filter", q.filter.toJson) :: sortField q.sort) key =
      (if "filter" = key then some q.filter.toJson else none).or
        (Fields.get? (sortField q.sort) key) :=
    Fields.get?_append [("filter", q.filter.toJson)] (sortField q.sort) key
  rw [fields, Fields.get?_append, Fields.get?_append, hcons]

theorem get?_fields_filter : Fields.get? q.fields "filter" = some q.filter.toJson := by
  simp [get?_fields]

theorem get?_fields_sort : Fields.get? q.fields "sort" = Fields.get? (sortField q.sort) "sort" := by
  simp [get?_fields, get?_countField_ne]

theorem get?_fields_skip :
    Fields.get? q.fields "skip" = Fields.get? (countField "skip" q.skip) "skip" := by
  simp [get?_fields, get?_countField_ne, get?_sortField_ne]

theorem get?_fields_limit :
    Fields.get? q.fields "limit" = Fields.get? (countField "limit" q.limit) "limit" := by
  simp [get?_fields, get?_countField_ne, get?_sortField_ne]

end

/-- What reading a query looks at: four fields, each of which may be absent. -/
theorem ofJson?_eq (v : Json) :
    ofJson? v = (v.fieldsOf? ["filter", "sort", "skip", "limit"]).bind fun fs =>
      ((Fields.get? fs "filter").elim (some .all) Filter.ofJson?).bind fun filter =>
      ((Fields.get? fs "sort").elim (some []) SortKey.listOfJson?).bind fun sort =>
      (Json.optionalCount? (Fields.get? fs "skip")).bind fun skip =>
      (Json.optionalCount? (Fields.get? fs "limit")).bind fun limit =>
      some ⟨filter, sort, skip, limit⟩ := by
  unfold ofJson?
  cases v.fieldsOf? ["filter", "sort", "skip", "limit"] with
  | none => rfl
  | some fs =>
    simp only [Option.bind_eq_bind, Option.bind_some]
    cases Fields.get? fs "filter" <;> cases Fields.get? fs "sort" <;> rfl

theorem ofJson?_eq_some_iff {v : Json} {q : FindQuery} :
    ofJson? v = some q ↔ ∃ fs, v.fieldsOf? ["filter", "sort", "skip", "limit"] = some fs ∧
      (Fields.get? fs "filter").elim (some .all) Filter.ofJson? = some q.filter ∧
      (Fields.get? fs "sort").elim (some []) SortKey.listOfJson? = some q.sort ∧
      Json.optionalCount? (Fields.get? fs "skip") = some q.skip ∧
      Json.optionalCount? (Fields.get? fs "limit") = some q.limit := by
  obtain ⟨filter, sort, skip, limit⟩ := q
  simp only [ofJson?_eq, Option.bind_eq_some_iff, Option.some.injEq, FindQuery.mk.injEq]
  constructor
  · rintro ⟨fs, hfs, f, hf, ks, hks, m, hm, n, hn, rfl, rfl, rfl, rfl⟩
    exact ⟨fs, hfs, hf, hks, hm, hn⟩
  · rintro ⟨fs, hfs, hf, hks, hm, hn⟩
    exact ⟨fs, hfs, filter, hf, sort, hks, skip, hm, limit, hn, rfl, rfl, rfl, rfl⟩

/-- A query that was read has counts that fit. -/
theorem Fits.of_ofJson? {v : Json} {q : FindQuery} (h : ofJson? v = some q) : q.Fits := by
  obtain ⟨fs, -, -, -, hskip, hlimit⟩ := ofJson?_eq_some_iff.1 h
  exact ⟨Json.countFits_of_optionalCount? hskip, Json.countFits_of_optionalCount? hlimit⟩

/-- A query whose counts fit is read from its JSON form. -/
theorem Fits.ofJson?_toJson {q : FindQuery} (h : q.Fits) : ofJson? q.toJson = some q := by
  refine ofJson?_eq_some_iff.2 ⟨q.fields, rfl, ?_, ?_, ?_, ?_⟩
  · rw [get?_fields_filter]
    exact q.filter.ofJson?_toJson
  · rw [get?_fields_sort]
    cases hsort : q.sort with
    | nil => rfl
    | cons k ks =>
      have hget : Fields.get? (sortField (k :: ks)) "sort" =
          some (.arr ((k :: ks).map SortKey.toJson)) := rfl
      rw [hget]
      exact SortKey.listOfJson?_toJson (k :: ks)
  · rw [get?_fields_skip]
    exact optionalCount?_countField h.skip
  · rw [get?_fields_limit]
    exact optionalCount?_countField h.limit

end FindQuery

/-- **Written queries read back.** A query is read from its JSON form as it was written exactly
when its counts fit 64 bits, and whatever value a query is read from, it is read from its own JSON
form again. -/
theorem written_queries_read_back :
    (∀ q : FindQuery, FindQuery.ofJson? q.toJson = some q ↔ q.Fits) ∧
    (∀ v q, FindQuery.ofJson? v = some q → FindQuery.ofJson? q.toJson = some q) :=
  ⟨fun _ => ⟨FindQuery.Fits.of_ofJson?, FindQuery.Fits.ofJson?_toJson⟩,
    fun _ _ h => (FindQuery.Fits.of_ofJson? h).ofJson?_toJson⟩

/-- A query for tagged records, the latest first, after the first three. -/
def tagSearch : FindQuery :=
  ⟨.or [.all, .and [.field "tags" (.oneOf [.null, .arr [.int 1]]) .plain]],
    [⟨"at", .descending, .plain⟩], some 3, none⟩

/-- The same query as the list of its fields, without kinds and without a limit. -/
def tagSearchForm : Json :=
  let tagged := Json.obj [("Field", .obj [("field", .str "tags"),
    ("condition", .obj [("in", .arr [.null, .arr [.int 1]])])])]
  .arr [.obj [("Or", .arr [.str "All", .obj [("And", .arr [tagged])]])],
    .arr [.obj [("field", .str "at"), ("direction", .obj [("descending", .null)])]], .int 3]

theorem written_queries_read_back_tagSearch :
    FindQuery.ofJson? tagSearchForm = some tagSearch ∧
      FindQuery.ofJson? tagSearch.toJson = some tagSearch := by
  have h : FindQuery.ofJson? tagSearchForm = some tagSearch := rfl
  exact ⟨h, written_queries_read_back.2 _ _ h⟩

end EntityGraph
