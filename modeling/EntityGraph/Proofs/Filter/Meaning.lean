import EntityGraph.Argument.Filter
import EntityGraph.Record.Match
import EntityGraph.Proofs.Traversal

/-!
What filter arguments mean. The meaning of an argument is read off the argument itself, and not
off the filter that is made of it: an object asks for all its entries, and lists, nulls and single
objects count as what they stand for. A filter that is made of an argument lets a record pass just
when the record meets the argument.
-/

namespace EntityGraph

/-! ### Operators -/

/-- The values that a condition looks at: the elements of a list, or else the value itself. -/
def Json.candidates : Json → List Json
  | .arr xs => xs
  | v => [v]

namespace Argument

/-- The operators that can be read. -/
def operatorNames : List String := ["eq", "ne", "gt", "gte", "lt", "lte", "in", "nin"]

/-- The value of a field meets an operator. Except for `eq` and `ne`, an operator is met when its
operand is null. -/
def OperatorHolds (kind : ValueKind) (v : Json) (operator : String) (operand : Json) : Prop :=
  if operator = "eq" then ∃ x ∈ v.candidates, kind.equal x operand = true
  else if operator = "ne" then ∀ x ∈ v.candidates, kind.equal x operand = false
  else operand = .null ∨
    match operator with
    | "gt" => ∃ x ∈ v.candidates, kind.compare? x operand = some .gt
    | "gte" => ∃ x ∈ v.candidates,
        kind.compare? x operand = some .gt ∨ kind.compare? x operand = some .eq
    | "lt" => ∃ x ∈ v.candidates, kind.compare? x operand = some .lt
    | "lte" => ∃ x ∈ v.candidates,
        kind.compare? x operand = some .lt ∨ kind.compare? x operand = some .eq
    | "in" => ∃ x ∈ v.candidates, ∃ e ∈ operand.candidates, kind.equal x e = true
    | "nin" => ∀ x ∈ v.candidates, ∀ e ∈ operand.candidates, kind.equal x e = false
    | _ => False

/-- The value of a field meets the entry of the field: all its operators, with operands as JSON. -/
def FieldHolds (kind : ValueKind) (v : Json) : Value → Prop
  | .null => True
  | .object operators => ∀ o ∈ operators, OperatorHolds kind v o.1 o.2.toJson
  | _ => False

/-! ### Arguments -/

/-- The filters that stand under a key for lists of filters: a single one counts as a list. -/
def listed : Value → List Value
  | .null => []
  | .list vs => vs
  | v => [v]

/-- What is listed in an entry of an object is smaller than the object. -/
theorem sizeOf_listed {fs : List (String × Value)} {e : String × Value} (he : e ∈ fs) {v : Value}
    (hv : v ∈ listed e.2) : sizeOf v < sizeOf (Value.object fs) := by
  obtain ⟨key, w⟩ := e
  have hw : sizeOf w < sizeOf fs :=
    Nat.lt_trans (by simp only [Prod.mk.sizeOf_spec]; omega) (List.sizeOf_lt_of_mem he)
  have hle : sizeOf v ≤ sizeOf w := by
    cases w with
    | null => exact absurd hv List.not_mem_nil
    | list vs =>
      have hlt : sizeOf v < sizeOf vs := List.sizeOf_lt_of_mem hv
      simp only [Value.list.sizeOf_spec]
      omega
    | bool | int | float | str | item | bytes | object =>
      exact List.mem_singleton.1 hv ▸ Nat.le_refl _
  simp only [Value.object.sizeOf_spec]
  omega

/-- **What a filter argument asks of a record.** Null asks for nothing, and an object for all its
entries: under `AND` for every filter that is listed, under `OR` for some filter that is listed,
unless none is, and under any other key for the operators on that field. -/
def Meets (ks : FieldKinds) (record : Json) : Value → Prop
  | .null => True
  | .object fs => ∀ e, ∀ _ : e ∈ fs,
      if e.1 = andKey then ∀ v, ∀ _ : v ∈ listed e.2, Meets ks record v
      else if e.1 = orKey then listed e.2 = [] ∨ ∃ v, ∃ _ : v ∈ listed e.2, Meets ks record v
      else FieldHolds (ks.kind e.1) (Record.valueAt record e.1) e.2
  | _ => False
termination_by v => sizeOf v
decreasing_by all_goals exact sizeOf_listed ‹_› ‹_›

end Argument

/-! ### Conditions -/

theorem Json.isNull_iff {v : Json} : v.isNull = true ↔ v = .null := by
  cases v <;> simp [isNull]

theorem Json.anyElement_iff {v : Json} {test : Json → Bool} :
    v.anyElement test = true ↔ ∃ x ∈ v.candidates, test x = true := by
  cases v <;> simp [anyElement, candidates]

theorem Json.anyElement_eq_false_iff {v : Json} {test : Json → Bool} :
    v.anyElement test = false ↔ ∀ x ∈ v.candidates, test x = false := by
  cases v <;> simp [anyElement, candidates]

/-- A value stands to a bound in one of the given orders. -/
theorem Condition.ordered_iff {kind : ValueKind} {accept : List Ordering} {bound v : Json} :
    ordered kind accept bound v = true ↔ ∃ o ∈ accept, kind.compare? v bound = some o := by
  unfold ordered
  cases kind.compare? v bound <;> simp [eq_comm]

namespace Argument

theorem operandList_eq (v : Json) : operandList v = v.candidates := by
  cases v <;> rfl

/-- The condition of an operator, if it has one, says what the operator asks for. -/
theorem condition_correct {operator : String} {operand : Value} {c : Option Condition}
    (h : condition operator operand = .ok c) (kind : ValueKind) (v : Json) :
    (∀ k ∈ c, k.holds kind v = true) ↔ OperatorHolds kind v operator operand.toJson := by
  unfold condition at h
  unfold OperatorHolds
  by_cases heq : operator = "eq"
  · rw [if_pos heq] at h ⊢
    obtain rfl := Except.ok.inj h
    simp [Condition.holds, Json.anyElement_iff]
  by_cases hne : operator = "ne"
  · rw [if_neg heq, if_pos hne] at h ⊢
    obtain rfl := Except.ok.inj h
    simp [Condition.holds, Json.anyElement_eq_false_iff]
  rw [if_neg heq, if_neg hne] at h ⊢
  -- of the other operators, only those with an operand make a condition
  by_cases hnull : operand.toJson = .null
  · rw [if_pos (Json.isNull_iff.2 hnull)] at h
    obtain rfl := Except.ok.inj h
    simp [hnull]
  rw [if_neg (mt Json.isNull_iff.1 hnull)] at h
  simp only [hnull, false_or]
  split at h
  case h_7 => cases h
  all_goals
    obtain rfl := Except.ok.inj h
    simp [Condition.holds, Json.anyElement_iff, Json.anyElement_eq_false_iff,
      Condition.ordered_iff, operandList_eq]

theorem operatorFilters_correct {field : String} {kind : ValueKind} {record : Json}
    {operators : List (String × Value)} {fs : List Filter}
    (h : operatorFilters field kind operators = .ok fs) :
    (∀ f ∈ fs, f.passes record = true) ↔
      ∀ o ∈ operators, OperatorHolds kind (Record.valueAt record field) o.1 o.2.toJson := by
  induction operators generalizing fs with
  | nil =>
    obtain rfl := Except.ok.inj h
    simp
  | cons o operators ih =>
    obtain ⟨operator, operand⟩ := o
    rw [operatorFilters] at h
    split at h
    · cases h
    · rename_i c hc
      obtain ⟨gs, hrest, rfl⟩ := exceptMap_eq_ok_iff.1 h
      rw [List.forall_mem_cons, ← ih hrest, ← condition_correct hc]
      cases c <;> simp [Filter.passes]

theorem fieldFilters_correct {ks : FieldKinds} {field : String} {record : Json} {v : Value}
    {fs : List Filter} (h : fieldFilters ks field v = .ok fs) :
    (∀ f ∈ fs, f.passes record = true) ↔
      FieldHolds (ks.kind field) (Record.valueAt record field) v := by
  unfold fieldFilters at h
  split at h
  · obtain rfl := Except.ok.inj h
    simp [FieldHolds]
  · rw [operatorFilters_correct h, FieldHolds]
  · cases h

end Argument

/-! ### Joining filters -/

namespace Filter

variable {record : Json} {fs : List Filter}

/-- Leaving out the filters that let every record pass makes no difference. -/
theorem passes_conj : (conj fs).passes record = true ↔ ∀ f ∈ fs, f.passes record = true := by
  have hrestricting : (∀ f ∈ restricting fs, f.passes record = true) ↔
      ∀ f ∈ fs, f.passes record = true := by
    refine ⟨fun h f hf => ?_, fun h f hf => h f (mem_restricting.1 hf).1⟩
    cases hall : f.isAll with
    | false => exact h f (mem_restricting.2 ⟨hf, hall⟩)
    | true =>
      cases f with
      | all => rfl
      | and | or | field => cases hall
  rw [← hrestricting, conj]
  split
  · rename_i hnil
    simp [hnil, passes]
  · rename_i f hone
    simp [hone]
  · rw [passes_and, List.all_eq_true]

/-- An empty disjunction is left out, and lets every record pass. -/
theorem passes_disjunction :
    (∀ f ∈ Argument.disjunction fs, f.passes record = true) ↔
      fs = [] ∨ ∃ f ∈ fs, f.passes record = true := by
  cases fs with
  | nil => simp [Argument.disjunction]
  | cons f fs => simp [Argument.disjunction, passes_or]

end Filter

namespace Argument

variable {ks : FieldKinds} {record : Json}

/-- The filter of an argument, if it is accepted, lets a record pass just when the record meets the
argument. -/
def Faithful (ks : FieldKinds) (record : Json) (v : Value) : Prop :=
  ∀ f, filter ks v = .ok f → (f.passes record = true ↔ Meets ks record v)

/-- Filters that stand for arguments one by one. -/
def Stand (ks : FieldKinds) (record : Json) (fs : List Filter) (vs : List Value) : Prop :=
  List.Forall₂ (fun f v => f.passes record = true ↔ Meets ks record v) fs vs

namespace Stand

variable {fs : List Filter} {vs : List Value}

theorem all_iff (h : Stand ks record fs vs) :
    (∀ f ∈ fs, f.passes record = true) ↔ ∀ v ∈ vs, Meets ks record v := by
  induction h with
  | nil => simp
  | cons hf _ ih => rw [List.forall_mem_cons, List.forall_mem_cons, hf, ih]

theorem any_iff (h : Stand ks record fs vs) :
    (∃ f ∈ fs, f.passes record = true) ↔ ∃ v ∈ vs, Meets ks record v := by
  induction h with
  | nil => simp
  | cons hf _ ih => simp [hf, ih]

theorem nil_iff (h : Stand ks record fs vs) : fs = [] ↔ vs = [] := by
  cases h <;> simp

end Stand

theorem filterItems_stand {vs : List Value} (hvs : ∀ v ∈ vs, Faithful ks record v)
    {fs : List Filter} (h : filterItems ks vs = .ok fs) : Stand ks record fs vs := by
  induction vs generalizing fs with
  | nil =>
    obtain rfl := Except.ok.inj h
    exact .nil
  | cons v vs ih =>
    rw [filterItems] at h
    split at h
    · cases h
    · rename_i f hf
      obtain ⟨gs, hrest, rfl⟩ := exceptMap_eq_ok_iff.1 h
      obtain ⟨hv, hvs⟩ := List.forall_mem_cons.1 hvs
      exact .cons (hv f hf) (ih hvs hrest)

/-- A single object is read as the list of it. -/
theorem filterList_object (gs : List (String × Value)) :
    filterList ks (.object gs) = (filter ks (.object gs)).map fun f => [f] := by
  rw [filterList, filter]
  cases filterParts ks gs <;> rfl

theorem filterList_stand {v : Value} (hv : ∀ w ∈ listed v, Faithful ks record w)
    {fs : List Filter} (h : filterList ks v = .ok fs) : Stand ks record fs (listed v) := by
  match v with
  | .null =>
    obtain rfl := Except.ok.inj h
    exact .nil
  | .list vs => exact filterItems_stand hv h
  | .object gs =>
    rw [filterList_object] at h
    obtain ⟨f, hf, rfl⟩ := exceptMap_eq_ok_iff.1 h
    exact .cons (hv _ List.mem_cons_self f hf) .nil
  | .bool _ | .int _ | .float _ | .str _ | .item _ | .bytes _ => simp [filterList] at h

/-- The filters of the entries of an object let a record pass just when it meets the object. -/
theorem filterParts_correct {fs : List (String × Value)}
    (hfs : ∀ e ∈ fs, ∀ v ∈ listed e.2, Faithful ks record v) {ps : List Filter}
    (h : filterParts ks fs = .ok ps) :
    (∀ p ∈ ps, p.passes record = true) ↔ Meets ks record (.object fs) := by
  rw [Meets]
  induction fs generalizing ps with
  | nil =>
    obtain rfl := Except.ok.inj h
    simp
  | cons e rest ih =>
    obtain ⟨key, v⟩ := e
    obtain ⟨hv, hrest⟩ := List.forall_mem_cons.1 hfs
    rw [filterParts] at h
    split at h
    · cases h
    · rename_i part hpart
      obtain ⟨gs, hgs, rfl⟩ := exceptMap_eq_ok_iff.1 h
      rw [List.forall_mem_append, ih hrest hgs, List.forall_mem_cons]
      refine and_congr_left' ?_
      by_cases hand : key = andKey
      · rw [if_pos hand] at hpart ⊢
        obtain ⟨fs', hlist, rfl⟩ := exceptMap_eq_ok_iff.1 hpart
        rw [List.forall_mem_singleton, Filter.passes_conj, (filterList_stand hv hlist).all_iff]
      by_cases hor : key = orKey
      · rw [if_neg hand, if_pos hor] at hpart ⊢
        obtain ⟨fs', hlist, rfl⟩ := exceptMap_eq_ok_iff.1 hpart
        have hstand := filterList_stand hv hlist
        rw [Filter.passes_disjunction, hstand.nil_iff, hstand.any_iff]
        simp
      rw [if_neg hand, if_neg hor] at hpart ⊢
      exact fieldFilters_correct hpart

/-- **Filters mean what their arguments say.** The filter of an argument that is accepted lets a
record pass just when the record meets the argument: nothing is lost where parts that do not
restrict are left out, where single objects stand for lists, and where kinds are attached to
fields. -/
theorem passes_iff_meets (ks : FieldKinds) {v : Value} {f : Filter} (h : filter ks v = .ok f)
    (record : Json) : f.passes record = true ↔ Meets ks record v := by
  -- the filters listed in an object stand two levels below it, so the induction is on the size
  induction hn : sizeOf v using Nat.strongRecOn generalizing v f with
  | ind n ih =>
    subst hn
    match v with
    | .null =>
      obtain rfl := Except.ok.inj h
      rw [Meets]
      exact iff_of_true rfl trivial
    | .object fs =>
      rw [filter] at h
      obtain ⟨ps, hparts, rfl⟩ := exceptMap_eq_ok_iff.1 h
      rw [Filter.passes_conj, filterParts_correct (fun e he w hw g hg => ?_) hparts]
      exact ih _ (sizeOf_listed he hw) hg rfl
    | .bool _ | .int _ | .float _ | .str _ | .item _ | .bytes _ | .list _ => simp [filter] at h

/-- A search for what is cheap or by one of two makers, and due at one instant. -/
theorem passes_iff_meets_search :
    let search : Value := .object
      [ ("OR", .list
          [ .object [("price", .object [("lte", .int 10), ("gt", .null)])],
            .object [("maker", .object [("in", .list [.str "a", .str "b"])])] ]),
        ("AND", .object
          [("OR", .list []), ("due", .object [("eq", .str "2024-01-01T01:00:00+01:00")])]),
        ("color", .null) ]
    ∃ f, filter ⟨["due"]⟩ search = .ok f ∧
      Meets ⟨["due"]⟩ (.obj [("price", .int 9), ("due", .str "2024-01-01T00:00:00Z")]) search ∧
      ¬ Meets ⟨["due"]⟩
        (.obj [("price", .int 11), ("due", .str "2024-01-01T00:00:00Z")]) search := by
  intro search
  refine ⟨_, rfl, (passes_iff_meets _ rfl _).1 (by decide +kernel), fun h => ?_⟩
  exact absurd ((passes_iff_meets _ rfl _).2 h) (by decide +kernel)

end Argument

end EntityGraph
