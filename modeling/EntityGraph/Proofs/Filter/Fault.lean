import EntityGraph.Proofs.Filter.Meaning
import EntityGraph.Proofs.Preorder

/-!
Filter arguments that are refused. An argument is read place by place: below a filter stand its
entries, below a list of filters its items, below the operators of a field their operands. Whether
the value at a place can be read is told from the place alone. An argument is refused just when it
has a place that cannot be read, however deep, and it is refused for the first such place.
-/

namespace EntityGraph.Argument

/-! ### Places -/

/-- A value in a filter argument, with what it is read as: a filter, the filters under `AND` or
`OR`, the operators on a field, or the operand of an operator. -/
inductive Place where
  | filter (v : Value)
  | filters (v : Value)
  | operators (field : String) (v : Value)
  | operand (operator : String) (v : Value)

namespace Place

/-- The place of an entry of a filter. -/
def entry (e : String × Value) : Place :=
  if e.1 = andKey ∨ e.1 = orKey then .filters e.2 else .operators e.1 e.2

/-- The places directly below a place, in order. A single filter stands for the list of it. -/
def below : Place → List Place
  | .filter (.object fs) => fs.map entry
  | .filters (.list vs) => vs.map .filter
  | .filters (.object fs) => [.filter (.object fs)]
  | .operators _ (.object fs) => fs.map fun o => .operand o.1 o.2
  | _ => []

/-- **Why the value at a place cannot be read.** A filter and the operators on a field are to be an
object or null, the filters under `AND` or `OR` a list, an object or null, and an operator one of
the known ones, unless its operand is null as JSON. -/
def fault? : Place → Option ArgumentError
  | .filter .null | .filter (.object _) => none
  | .filter v => some (.notFilter v)
  | .filters .null | .filters (.list _) | .filters (.object _) => none
  | .filters v => some (.notFilterList v)
  | .operators _ .null | .operators _ (.object _) => none
  | .operators field v => some (.notOperators field v)
  | .operand operator v =>
    if operator ∈ operatorNames ∨ v.toJson.isNull = true then none
    else some (.unknownOperator operator)

/-- The refusal of a place that is read with all that is below it. -/
def failure? (ks : FieldKinds) : Place → Option ArgumentError
  | .filter v => refusal? (Argument.filter ks v)
  | .filters v => refusal? (filterList ks v)
  | .operators field v => refusal? (fieldFilters ks field v)
  | .operand operator v => refusal? (condition operator v)

/-! ### One level -/

/-- The places below are smaller. A list of one filter counts as more than the filter. -/
noncomputable def size : Place → ℕ
  | .filter v => 2 * sizeOf v
  | .filters v => 2 * sizeOf v + 1
  | .operators _ v => 2 * sizeOf v
  | .operand _ _ => 0

theorem size_lt : ∀ p : Place, ∀ q ∈ p.below, q.size < p.size
  | .filter (.object fs), q, hq => by
    obtain ⟨e, he, rfl⟩ := List.mem_map.1 hq
    have hlt : sizeOf e < sizeOf fs := List.sizeOf_lt_of_mem he
    have hpair : sizeOf e = 1 + sizeOf e.1 + sizeOf e.2 := rfl
    have hobject : sizeOf (Value.object fs) = 1 + sizeOf fs := Value.object.sizeOf_spec fs
    unfold entry
    split <;> simp only [size] <;> omega
  | .filters (.list vs), q, hq => by
    obtain ⟨v, hv, rfl⟩ := List.mem_map.1 hq
    have hlt : sizeOf v < sizeOf vs := List.sizeOf_lt_of_mem hv
    have hlist : sizeOf (Value.list vs) = 1 + sizeOf vs := Value.list.sizeOf_spec vs
    simp only [size]
    omega
  | .filters (.object fs), q, hq => by
    obtain rfl := List.mem_singleton.1 hq
    simp only [size]
    omega
  | .operators _ (.object fs), q, hq => by
    obtain ⟨o, -, rfl⟩ := List.mem_map.1 hq
    simp only [size, Value.object.sizeOf_spec]
    omega

variable {ks : FieldKinds}

/-- Of the operators that are not known, those with an operand are refused. -/
theorem failure?_operand (operator : String) (v : Value) :
    failure? ks (.operand operator v) = fault? (.operand operator v) := by
  show refusal? (condition operator v) = if operator ∈ operatorNames ∨ _ then none else _
  unfold condition
  by_cases heq : operator = "eq"
  · simp [heq, refusal?, operatorNames]
  by_cases hne : operator = "ne"
  · simp [hne, refusal?, operatorNames]
  simp only [if_neg heq, if_neg hne]
  cases v.toJson.isNull with
  | true => simp [refusal?]
  | false =>
    simp only [Bool.false_eq_true, if_false, or_false]
    split
    case h_7 => simp_all [refusal?, operatorNames]
    all_goals simp [refusal?, operatorNames]

theorem failure?_operators (field : String) (fs : List (String × Value)) :
    failure? ks (.operators field (.object fs)) =
      fs.findSome? fun o => failure? ks (.operand o.1 o.2) := by
  show refusal? (operatorFilters field (ks.kind field) fs) = _
  induction fs with
  | nil => rfl
  | cons o fs ih =>
    obtain ⟨operator, v⟩ := o
    have hoperand : failure? ks (.operand operator v) = refusal? (condition operator v) := rfl
    rw [operatorFilters, List.findSome?_cons, hoperand, ← ih]
    cases condition operator v with
    | error e => rfl
    | ok c => exact refusal?_map _ _

theorem failure?_entry (e : String × Value) :
    failure? ks (entry e) =
      refusal? (if e.1 = andKey then (filterList ks e.2).map fun fs => [Filter.conj fs]
        else if e.1 = orKey then (filterList ks e.2).map disjunction
        else fieldFilters ks e.1 e.2) := by
  unfold entry
  by_cases hand : e.1 = andKey
  · rw [if_pos hand, if_pos (.inl hand), refusal?_map, failure?]
  by_cases hor : e.1 = orKey
  · rw [if_neg hand, if_pos hor, if_pos (.inr hor), refusal?_map, failure?]
  · rw [if_neg hand, if_neg hor, if_neg (not_or.2 ⟨hand, hor⟩), failure?]

theorem failure?_filter (fs : List (String × Value)) :
    failure? ks (.filter (.object fs)) = fs.findSome? fun e => failure? ks (entry e) := by
  show refusal? (Argument.filter ks (.object fs)) = _
  rw [Argument.filter, refusal?_map]
  induction fs with
  | nil => rfl
  | cons e fs ih =>
    rw [List.findSome?_cons, failure?_entry, ← ih, filterParts]
    split
    · rename_i hpart
      rw [hpart]
      rfl
    · rename_i hpart
      rw [hpart]
      exact refusal?_map _ _

theorem failure?_filters (vs : List Value) :
    failure? ks (.filters (.list vs)) = vs.findSome? fun v => failure? ks (.filter v) := by
  show refusal? (filterList ks (.list vs)) = _
  rw [filterList]
  induction vs with
  | nil => rfl
  | cons v vs ih =>
    have hitem : failure? ks (.filter v) = refusal? (Argument.filter ks v) := rfl
    rw [filterItems, List.findSome?_cons, hitem, ← ih]
    cases Argument.filter ks v with
    | error e => rfl
    | ok f => exact refusal?_map _ _

/-- **A place is refused for its own fault, or else for that of the first place below that is
refused.** -/
theorem failure?_eq (ks : FieldKinds) (p : Place) :
    p.failure? ks = p.fault?.or (p.below.findSome? (failure? ks)) := by
  match p with
  | .filter (.object fs) =>
    rw [failure?_filter, below, List.findSome?_map]
    rfl
  | .filters (.list vs) =>
    rw [failure?_filters, below, List.findSome?_map]
    rfl
  | .filters (.object fs) =>
    show refusal? (filterList ks (.object fs)) =
      (List.findSome? (failure? ks) [.filter (.object fs)])
    rw [filterList_object, refusal?_map, List.findSome?_singleton]
    rfl
  | .operators field (.object fs) =>
    rw [failure?_operators, below, List.findSome?_map]
    rfl
  | .operand operator v =>
    rw [failure?_operand]
    exact (Option.or_none).symm
  | .filter .null | .filter (.bool _) | .filter (.int _) | .filter (.float _) | .filter (.str _)
  | .filter (.item _) | .filter (.bytes _) | .filter (.list _) =>
    simp [failure?, Argument.filter, fault?, below, refusal?]
  | .filters .null | .filters (.bool _) | .filters (.int _) | .filters (.float _)
  | .filters (.str _) | .filters (.item _) | .filters (.bytes _) =>
    simp [failure?, filterList, fault?, below, refusal?]
  | .operators _ .null | .operators _ (.bool _) | .operators _ (.int _) | .operators _ (.float _)
  | .operators _ (.str _) | .operators _ (.item _) | .operators _ (.bytes _)
  | .operators _ (.list _) => simp [failure?, fieldFilters, fault?, below, refusal?]

end Place

/-! ### Arguments -/

/-- **Filter arguments are refused for their first fault.** An argument is refused just when it has
a place that cannot be read, at any depth; the error is that of the first such place in the order
of the keys and items, what is below an entry before the next entry. An argument without such a
place is accepted, so that no part of a filter is ever left out for being ill-formed. -/
theorem refused_for_first_fault (ks : FieldKinds) (v : Value) :
    ((∃ e, filter ks v = .error e) ↔
      ∃ path p, placeAt? Place.below (.filter v) path = some p ∧ p.fault? ≠ none) ∧
    (∀ e, filter ks v = .error e ↔ FirstFault Place.below Place.fault? (.filter v) e) ∧
    ((∃ f, filter ks v = .ok f) ↔
      ∀ path p, placeAt? Place.below (.filter v) path = some p → p.fault? = none) := by
  have hrefused : ∀ e, filter ks v = .error e ↔
      FirstFault Place.below Place.fault? (.filter v) e := by
    intro e
    rw [← refusal?_eq_some_iff]
    exact failure_eq_some_iff Place.size Place.size_lt (Place.failure?_eq ks) (.filter v) e
  have haccepted : (∃ f, filter ks v = .ok f) ↔
      ∀ path p, placeAt? Place.below (.filter v) path = some p → p.fault? = none := by
    rw [← refusal?_eq_none_iff]
    exact failure_eq_none_iff Place.size Place.size_lt (Place.failure?_eq ks) (.filter v)
  refine ⟨?_, hrefused, haccepted⟩
  have hnot : (∃ e, filter ks v = .error e) ↔ ¬ ∃ f, filter ks v = .ok f := by
    cases filter ks v <;> simp
  rw [hnot, haccepted]
  simp only [not_forall, exists_prop, ne_eq]

/-- A search with an operator that is not known, deep inside, and with a price that stands where
operators are to stand, after it. -/
theorem refused_for_first_fault_search :
    let search : Value := .object
      [ ("AND", .list
          [ .object [("maker", .object [("eq", .str "a"), ("near", .null)])],
            .object [("OR", .object [("maker", .object [("like", .str "b")])])] ]),
        ("price", .int 10) ]
    filter .none search = .error (.unknownOperator "like") ∧
      FirstFault Place.below Place.fault? (.filter search) (.unknownOperator "like") := by
  intro search
  have hrefused : filter .none search = .error (.unknownOperator "like") := rfl
  exact ⟨hrefused, ((refused_for_first_fault .none search).2.1 _).1 hrefused⟩

end EntityGraph.Argument
