import EntityGraph.Proofs.Filter.Meaning
import EntityGraph.Proofs.Record.Respelled

/-!
Filters do not see how timestamps are spelled. Timestamps of a record may be written in other
spellings, and so may the operands of conditions on timestamp fields: as long as no condition on a
plain field looks at them, the record passes the filter just as before. The ordered operators need
all texts that they look at to be timestamps; equality needs nothing of the kind. But it does see
spellings when it compares whole objects, since their fields are compared as JSON.
-/

namespace EntityGraph

/-! ### Respelled filters -/

/-- Operands of a condition are respelled, as its field admits. -/
inductive Condition.Respelled (kind : ValueKind) : Condition → Condition → Prop
  | eq {e e' : Json} : kind.Respells e e' → Respelled kind (.eq e) (.eq e')
  | ne {e e' : Json} : kind.Respells e e' → Respelled kind (.ne e) (.ne e')
  | gt {b b' : Json} : kind.Respells b b' → Respelled kind (.gt b) (.gt b')
  | gte {b b' : Json} : kind.Respells b b' → Respelled kind (.gte b) (.gte b')
  | lt {b b' : Json} : kind.Respells b b' → Respelled kind (.lt b) (.lt b')
  | lte {b b' : Json} : kind.Respells b b' → Respelled kind (.lte b) (.lte b')
  | oneOf {es es' : List Json} :
      List.Forall₂ kind.Respells es es' → Respelled kind (.oneOf es) (.oneOf es')
  | noneOf {es es' : List Json} :
      List.Forall₂ kind.Respells es es' → Respelled kind (.noneOf es) (.noneOf es')

mutual

/-- Operands of a filter are respelled, at any depth. -/
inductive Filter.Respelled : Filter → Filter → Prop
  | all : Respelled .all .all
  | and {fs gs : List Filter} : RespelledAll fs gs → Respelled (.and fs) (.and gs)
  | or {fs gs : List Filter} : RespelledAll fs gs → Respelled (.or fs) (.or gs)
  | field {name : String} {c d : Condition} {kind : ValueKind} :
      c.Respelled kind d → Respelled (.field name c kind) (.field name d kind)

inductive Filter.RespelledAll : List Filter → List Filter → Prop
  | nil : RespelledAll [] []
  | cons {f g : Filter} {fs gs : List Filter} :
      Filter.Respelled f g → RespelledAll fs gs → RespelledAll (f :: fs) (g :: gs)

end

/-! ### What conditions look at -/

namespace Condition

/-- The bound of an ordered operator. -/
def bound? : Condition → Option Json
  | .gt b | .gte b | .lt b | .lte b => some b
  | .eq _ | .ne _ | .oneOf _ | .noneOf _ => none

/-- The operands that values are to equal, or not. -/
def compared : Condition → List Json
  | .eq e | .ne e => [e]
  | .oneOf es | .noneOf es => es
  | .gt _ | .gte _ | .lt _ | .lte _ => []

/-- Values are to equal a whole object, or not. -/
def ComparesObjects (c : Condition) : Prop := ∃ fs, .obj fs ∈ c.compared

/-- **The spellings do not show** in a condition on a field of a record: a plain one looks at no
respelled value, an ordered one on timestamps at no text that is no timestamp, and one that compares
whole objects at no object with a respelled value inside. -/
structure Tolerates (c : Condition) (kind : ValueKind) (path : String) (P : List String → Prop)
    (record : Json) : Prop where
  plain : kind = .plain → ¬P (Record.pathKeys path)
  dated : kind = .timestamp → ∀ b, c.bound? = some b →
    b.Dated ∧ ∀ x ∈ (Record.valueAt record path).candidates, x.Dated
  objects : c.ComparesObjects → ∀ k ks, ¬P (Record.pathKeys path ++ k :: ks)

end Condition

mutual

/-- The conditions of a filter, at any depth, with the fields they are on. -/
def Filter.conditions : Filter → List (String × Condition × ValueKind)
  | .all => []
  | .and fs => conditionsOf fs
  | .or fs => conditionsOf fs
  | .field name c kind => [(name, c, kind)]

def Filter.conditionsOf : List Filter → List (String × Condition × ValueKind)
  | [] => []
  | f :: fs => f.conditions ++ conditionsOf fs

end

/-! ### Conditions -/

/-- What a condition sees of two values: one is another spelling of the other, or they are objects
that are not compared as a whole. -/
inductive ValueKind.Alike (kind : ValueKind) (whole : Prop) : Json → Json → Prop
  | respelled {v w : Json} : kind.Respells v w → Alike kind whole v w
  | objects {fs gs : List (String × Json)} : ¬whole → Alike kind whole (.obj fs) (.obj gs)

namespace ValueKind.Alike

variable {kind : ValueKind} {whole : Prop} {v w e e' : Json}

theorem equal (h : kind.Alike whole v w) (he : kind.Respells e e')
    (hwhole : ∀ fs, e = .obj fs → whole) : kind.equal w e' = kind.equal v e := by
  cases h with
  | respelled hv => exact hv.equal he
  | objects hnot =>
    -- an object equals nothing but an object
    cases he with
    | same =>
      cases e with
      | obj fs => exact absurd (hwhole fs rfl) hnot
      | null | bool | int | float | str | arr => rfl
    | instant => rfl

theorem compare? (h : kind.Alike whole v w) (he : kind.Respells e e')
    (hdated : kind = .timestamp → v.Dated ∧ e.Dated) :
    kind.compare? w e' = kind.compare? v e := by
  cases h with
  | respelled hv => exact hv.compare? he hdated
  | objects => rw [compare?_eq_none fun _ => rfl, compare?_eq_none fun _ => rfl]

theorem ordered (h : kind.Alike whole v w) (he : kind.Respells e e')
    (hdated : kind = .timestamp → v.Dated ∧ e.Dated) (accept : List Ordering) :
    Condition.ordered kind accept e' w = Condition.ordered kind accept e v := by
  rw [Condition.ordered, Condition.ordered, h.compare? he hdated]

end ValueKind.Alike

section

variable {P : List String → Prop} {kind : ValueKind} {whole : Prop} {v w r r' : Json}
  {c d : Condition}

/-- A respelled field offers alike values to a condition. -/
theorem Json.RespelledAt.candidates (h : v.RespelledAt P w) (hP : P [] → kind = .timestamp)
    (hwhole : whole → ∀ k ks, ¬P (k :: ks)) :
    List.Forall₂ (kind.Alike whole) v.candidates w.candidates := by
  have hself : ∀ v : Json, List.Forall₂ (kind.Alike whole) v.candidates v.candidates :=
    fun v => List.forall₂_same.2 fun x _ => .respelled (.same x)
  cases h with
  | same => exact hself v
  | here hhere hfield =>
    obtain rfl := hP hhere
    cases hfield with
    | value hvalue =>
      cases hvalue with
      | same => exact hself v
      | instant h => exact .cons (.respelled (.instant h)) .nil
    | elements helems => exact helems.imp fun _ _ h => .respelled h
  | inside hfields =>
    by_cases hw : whole
    · obtain rfl := hfields.eq (hwhole hw)
      exact hself _
    · exact .cons (.objects hw) .nil

theorem any_forall₂ {R : Json → Json → Prop} {p q : Json → Bool} {xs ys : List Json}
    (h : List.Forall₂ R xs ys) (hpq : ∀ x ∈ xs, ∀ y, R x y → q y = p x) : ys.any q = xs.any p := by
  induction h with
  | nil => rfl
  | cons hxy _ ih =>
    obtain ⟨hx, hxs⟩ := List.forall_mem_cons.1 hpq
    rw [List.any_cons, List.any_cons, hx _ hxy, ih hxs]

theorem Json.anyElement_eq (v : Json) (test : Json → Bool) :
    v.anyElement test = v.candidates.any test := by
  cases v <;> simp [anyElement, candidates]

/-- **A condition holds of alike values just when its respelled version does.** -/
theorem Condition.Respelled.holds (h : c.Respelled kind d)
    (hv : List.Forall₂ (kind.Alike c.ComparesObjects) v.candidates w.candidates)
    (hdated : kind = .timestamp → ∀ b, c.bound? = some b →
      b.Dated ∧ ∀ x ∈ v.candidates, x.Dated) :
    d.holds kind w = c.holds kind v := by
  have hbound : ∀ b b' accept, kind.Respells b b' → c.bound? = some b →
      w.anyElement (ordered kind accept b') = v.anyElement (ordered kind accept b) := by
    intro b b' accept hb hc
    rw [Json.anyElement_eq, Json.anyElement_eq]
    refine any_forall₂ hv fun x hx y hxy => hxy.ordered hb (fun hkind => ?_) accept
    exact ⟨(hdated hkind b hc).2 x hx, (hdated hkind b hc).1⟩
  have hequal : ∀ es es', List.Forall₂ kind.Respells es es' → c.compared = es →
      (w.anyElement fun y => es'.any (kind.equal y)) =
        v.anyElement fun x => es.any (kind.equal x) := by
    rintro es es' hes rfl
    rw [Json.anyElement_eq, Json.anyElement_eq]
    refine any_forall₂ hv fun x _ y hxy => any_forall₂ hes fun e he e' hee => ?_
    exact hxy.equal hee fun fs hfs => ⟨fs, hfs ▸ he⟩
  cases h with
  | eq he => simpa [Condition.holds] using hequal _ _ (.cons he .nil) rfl
  | ne he => simpa [Condition.holds] using hequal _ _ (.cons he .nil) rfl
  | gt hb | gte hb | lt hb | lte hb => exact hbound _ _ _ hb rfl
  | oneOf hes => exact hequal _ _ hes rfl
  | noneOf hes => exact congrArg not (hequal _ _ hes rfl)

end

/-! ### Filters -/

/-- A condition of a filter is met as before where it tolerates the spellings. -/
theorem Filter.passes_field_respelled {P : List String → Prop} {r r' : Json} {name : String}
    {c d : Condition} {kind : ValueKind} (h : c.Respelled kind d) (hr : r.RespelledAt P r')
    (ht : c.Tolerates kind name P r) :
    passes r' (.field name d kind) = passes r (.field name c kind) := by
  refine h.holds ((hr.valueAt name).candidates (fun hP => ?_) ht.objects) ht.dated
  rw [List.append_nil] at hP
  cases kind with
  | plain => exact absurd hP (ht.plain rfl)
  | timestamp => rfl

mutual

/-- **A filter lets the respelled record pass just when it let the record pass.** -/
theorem Filter.Respelled.passes {P : List String → Prop} {r r' : Json} {f g : Filter}
    (h : f.Respelled g) (hr : r.RespelledAt P r')
    (ht : ∀ k ∈ f.conditions, k.2.1.Tolerates k.2.2 k.1 P r) : g.passes r' = f.passes r :=
  match h with
  | .all => rfl
  | .and hall => by
    rw [Filter.passes_and, Filter.passes_and]
    simpa [List.all_map] using congrArg (List.all · id) (hall.map_passes hr ht)
  | .or hall => by
    rw [Filter.passes_or, Filter.passes_or]
    simpa [List.any_map] using congrArg (List.any · id) (hall.map_passes hr ht)
  | .field hc => Filter.passes_field_respelled hc hr (ht _ List.mem_cons_self)

theorem Filter.RespelledAll.map_passes {P : List String → Prop} {r r' : Json} {fs gs : List Filter}
    (h : RespelledAll fs gs) (hr : r.RespelledAt P r')
    (ht : ∀ k ∈ conditionsOf fs, k.2.1.Tolerates k.2.2 k.1 P r) :
    gs.map (Filter.passes r') = fs.map (Filter.passes r) :=
  match h with
  | .nil => rfl
  | .cons hf hfs => by
    obtain ⟨hhead, htail⟩ := List.forall_mem_append.1 ht
    rw [List.map_cons, List.map_cons, hf.passes hr hhead, hfs.map_passes hr htail]

end

/-! ### Spellings do not show -/

/-- **Filters and sort keys do not see how timestamps are spelled.** Let timestamps be respelled at
any paths of a record, and in the operands of conditions on timestamp fields. The record passes the
filter as before, if no condition on a plain field looks at such a path, every text that an ordered
condition on a timestamp field looks at is a timestamp, and its bound is one too, and no condition
that compares whole objects looks at an object with such a path inside. Sorting takes records from
their places in some order, and this order stays the same, if a sort key that looks at such a path
is one for timestamps and all texts there are timestamps. -/
theorem spellings_unseen (P : List String → Prop) :
    (∀ (f g : Filter) (record respelled : Json), f.Respelled g → record.RespelledAt P respelled →
      (∀ k ∈ f.conditions, k.2.1.Tolerates k.2.2 k.1 P record) →
      g.passes respelled = f.passes record) ∧
    (∀ keys records, (sortOrder keys records).Perm (List.range records.length) ∧
      sortRecords keys records = (sortOrder keys records).map fun i => records.getD i .null) ∧
    (∀ (keys : List SortKey) (records respelled : List Json),
      List.Forall₂ (Json.RespelledAt P) records respelled →
      (∀ k ∈ keys, k.Tolerates P records) →
      sortOrder keys respelled = sortOrder keys records) :=
  ⟨fun _ _ _ _ hf hr ht => hf.passes hr ht,
    fun keys records => ⟨sortByInsertion_perm _ _, sortRecords_eq_map keys records⟩,
    fun _ _ _ hr ht => sortOrder_respelled hr ht⟩

theorem sameInstant_noon :
    Timestamp.SameInstant "2024-01-01T12:00:00Z" "2024-01-01T13:00:00.0+01:00" :=
  ⟨⟨1704110400000000000, 0⟩, ⟨1704110400000000000, 3600⟩, by decide +kernel, by decide +kernel, rfl⟩

/-- Talks start at noon, in one spelling or another, and some of their dates are not fixed. -/
theorem spellings_unseen_talk :
    let noon : Json := .str "2024-01-01T12:00:00Z"
    let noon' : Json := .str "2024-01-01T13:00:00.0+01:00"
    let P := fun ks => ks = ["start"] ∨ ks = ["dates"]
    let record : Json :=
      .obj [("title", noon), ("start", noon), ("dates", .arr [.str "soon", noon])]
    let respelled : Json :=
      .obj [("title", noon), ("start", noon'), ("dates", .arr [.str "soon", noon'])]
    let f : Filter := .and [.field "title" (.eq noon) .plain,
      .field "start" (.gte noon') .timestamp,
      .or [.all, .field "dates" (.oneOf [.null, noon]) .timestamp]]
    let g : Filter := .and [.field "title" (.eq noon) .plain,
      .field "start" (.gte noon) .timestamp,
      .or [.all, .field "dates" (.oneOf [.null, noon']) .timestamp]]
    let keys : List SortKey := [⟨"start", .descending, .timestamp⟩, ⟨"title", .ascending, .plain⟩]
    f.Respelled g ∧ record.RespelledAt P respelled ∧
      (∀ k ∈ f.conditions, k.2.1.Tolerates k.2.2 k.1 P record) ∧
      (∀ k ∈ keys, k.Tolerates P [record, record]) ∧
      g.passes respelled = f.passes record ∧
      sortOrder keys [respelled, record] = sortOrder keys [record, record] := by
  intro noon noon' P record respelled f g keys
  have hnoon : ValueKind.timestamp.Respells noon noon' := .instant sameInstant_noon
  have hfilter : f.Respelled g :=
    .and (.cons (.field (.eq (.same noon)))
      (.cons (.field (.gte (.instant sameInstant_noon.symm)))
        (.cons (.or (.cons .all
          (.cons (.field (.oneOf (.cons (.same .null) (.cons hnoon .nil)))) .nil))) .nil)))
  have hrecord : record.RespelledAt P respelled :=
    .inside (.cons (.same noon) (.cons (.here (.inl rfl) (.value hnoon))
      (.cons (.here (.inr rfl) (.elements (.cons (.same _) (.cons hnoon .nil)))) .nil)))
  have htitle : ¬P (Record.pathKeys "title") := by decide
  have hdated : noon.Dated := sameInstant_noon.dated
  have hconditions : ∀ k ∈ f.conditions, k.2.1.Tolerates k.2.2 k.1 P record := by
    have hlist : f.conditions = [("title", .eq noon, .plain), ("start", .gte noon', .timestamp),
      ("dates", .oneOf [.null, noon], .timestamp)] := rfl
    rw [hlist]
    refine List.forall_mem_cons.2 ⟨⟨fun _ => htitle, nofun, ?_⟩, List.forall_mem_cons.2
      ⟨⟨nofun, fun _ b hb => ?_, ?_⟩, List.forall_mem_singleton.2 ⟨nofun, fun _ b hb => ?_, ?_⟩⟩⟩
    · rintro ⟨fs, hfs⟩
      simp [Condition.compared, noon] at hfs
    · obtain rfl := Option.some.inj hb
      have hstart : (Record.valueAt record "start").candidates = [noon] := rfl
      exact ⟨sameInstant_noon.symm.dated, hstart ▸ List.forall_mem_singleton.2 hdated⟩
    · rintro ⟨fs, hfs⟩
      simp [Condition.compared] at hfs
    · exact nomatch hb
    · rintro ⟨fs, hfs⟩
      simp [Condition.compared, noon] at hfs
  have hkeys : ∀ k ∈ keys, k.Tolerates P [record, record] := by
    refine List.forall_mem_cons.2 ⟨fun _ => ⟨rfl, fun r hr => ?_⟩,
      List.forall_mem_singleton.2 fun hP => absurd hP htitle⟩
    obtain rfl : r = record := by simpa using hr
    exact hdated
  obtain ⟨hpasses, -, hsorted⟩ := spellings_unseen P
  exact ⟨hfilter, hrecord, hconditions, hkeys,
    hpasses f g record respelled hfilter hrecord hconditions,
    hsorted keys [record, record] [respelled, record] (.cons hrecord (.cons (.same _) .nil)) hkeys⟩

/-- A date inside an object is respelled, and the object does not equal itself any more: all
conditions are on timestamp fields and none is ordered, but one compares the object as a whole. -/
theorem spelling_seen_inside_object :
    let noon : Json := .str "2024-01-01T12:00:00Z"
    let P := fun ks => ks = ["day", "start"]
    let record : Json := .obj [("day", .obj [("start", noon)])]
    let respelled : Json :=
      .obj [("day", .obj [("start", .str "2024-01-01T13:00:00.0+01:00")])]
    let f : Filter := .and [.field "day.start" (.eq noon) .timestamp,
      .field "day" (.eq (.obj [("start", noon)])) .timestamp]
    f.Respelled f ∧ record.RespelledAt P respelled ∧
      (∀ ks, P ks → ∃ k ∈ f.conditions, k.2.2 = .timestamp ∧ Record.pathKeys k.1 = ks) ∧
      (∀ k ∈ f.conditions, k.2.2 = .timestamp ∧ k.2.1.bound? = none) ∧
      f.passes record = true ∧ f.passes respelled = false := by
  intro noon P record respelled f
  have hconditions : f.conditions = [("day.start", .eq noon, .timestamp),
      ("day", .eq (.obj [("start", noon)]), .timestamp)] := rfl
  refine ⟨?_, ?_, ?_, ?_, by decide +kernel, by decide +kernel⟩
  · exact .and (.cons (.field (.eq (.same _))) (.cons (.field (.eq (.same _))) .nil))
  · exact .inside (.cons (.inside (.cons (.here rfl (.value (.instant sameInstant_noon))) .nil))
      .nil)
  · rintro ks rfl
    exact ⟨_, hconditions ▸ List.mem_cons_self, rfl, by decide⟩
  · rw [hconditions]
    exact List.forall_mem_cons.2 ⟨⟨rfl, rfl⟩, List.forall_mem_singleton.2 ⟨rfl, rfl⟩⟩

end EntityGraph
