import EntityGraph.Proofs.Filter.Meaning
import EntityGraph.Proofs.Record.Digits
import EntityGraph.Proofs.Value.Convert
import Mathlib.Data.Set.Basic

/-!
Integers that a filter argument compares with identifiers. Records hold their identifiers as text,
which no integer is equal to. So an integer may be written as any text that is equal to none of the
identifiers, and in particular as its digits, as long as these are no identifier themselves: the
argument is refused as before, or its filter lets the same records pass, whatever stands around the
comparison.
-/

namespace EntityGraph

/-! ### Writing integers as text -/

/-- A value, or the text of an integer. -/
def Value.written (w : ℤ → String) : Value → Value
  | .int n => .str (w n)
  | v => v

namespace Argument

/-- The operators that ask whether values are equal. -/
def equalities : List String := ["eq", "ne", "in", "nin"]

/-- What an operand lists, or else the operand itself. -/
def operands : Value → List Value
  | .list vs => vs
  | v => [v]

def writtenOperand (w : ℤ → String) : Value → Value
  | .list vs => .list (vs.map (Value.written w))
  | v => v.written w

/-- The operators on identifiers, with integers written as text. -/
def writtenOperators (w : ℤ → String) : Value → Value
  | .object os => .object (os.map fun o =>
      if o.1 ∈ equalities then (o.1, writtenOperand w o.2) else o)
  | v => v

mutual

/-- A filter argument with the integers that it compares with identifiers written as text, under
`AND` and `OR` too. -/
def written (w : ℤ → String) : Value → Value
  | .object fs => .object (writtenParts w fs)
  | v => v

def writtenParts (w : ℤ → String) : List (String × Value) → List (String × Value)
  | [] => []
  | (key, v) :: rest =>
    (key, if key = andKey ∨ key = orKey then writtenList w v
      else if key = idField then writtenOperators w v
      else v) :: writtenParts w rest

def writtenList (w : ℤ → String) : Value → Value
  | .list vs => .list (writtenItems w vs)
  | .object fs => .object (writtenParts w fs)
  | v => v

def writtenItems (w : ℤ → String) : List Value → List Value
  | [] => []
  | v :: vs => written w v :: writtenItems w vs

end

/-- A filter argument compares an integer with identifiers. -/
inductive Compares : Value → ℤ → Prop
  | here {fs os : List (String × Value)} {o : String × Value} {n : ℤ}
      (hfield : (idField, .object os) ∈ fs) (ho : o ∈ os) (heq : o.1 ∈ equalities)
      (hn : .int n ∈ operands o.2) : Compares (.object fs) n
  | joined {fs : List (String × Value)} {e : String × Value} {v : Value} {n : ℤ} (he : e ∈ fs)
      (hkey : e.1 = andKey ∨ e.1 = orKey) (hv : v ∈ listed e.2) (h : Compares v n) :
      Compares (.object fs) n

theorem compares_object {fs : List (String × Value)} {n : ℤ} :
    Compares (.object fs) n ↔ ∃ e ∈ fs,
      (e.1 = idField ∧ ∃ os, e.2 = .object os ∧
        ∃ o ∈ os, o.1 ∈ equalities ∧ .int n ∈ operands o.2) ∨
      ((e.1 = andKey ∨ e.1 = orKey) ∧ ∃ v ∈ listed e.2, Compares v n) := by
  constructor
  · intro h
    cases h with
    | here hfield ho heq hn => exact ⟨_, hfield, .inl ⟨rfl, _, rfl, _, ho, heq, hn⟩⟩
    | joined he hkey hv h => exact ⟨_, he, .inr ⟨hkey, _, hv, h⟩⟩
  · rintro ⟨⟨key, v⟩, he, ⟨rfl, os, rfl, o, ho, heq, hn⟩ | ⟨hkey, v, hv, h⟩⟩
    · exact .here he ho heq hn
    · exact .joined he hkey hv h

theorem Compares.cons {fs : List (String × Value)} {e : String × Value} {n : ℤ}
    (h : Compares (.object fs) n) : Compares (.object (e :: fs)) n := by
  obtain ⟨d, hd, hn⟩ := compares_object.1 h
  exact compares_object.2 ⟨d, List.mem_cons_of_mem _ hd, hn⟩

end Argument

/-! ### Conditions -/

/-- No identifier of a set is equal to the text of an integer. -/
def Unequal (kind : ValueKind) (ids : Set String) (w : ℤ → String) (n : ℤ) : Prop :=
  ∀ k ∈ ids, kind.equal (.str k) (.str (w n)) = false

section Conditions

variable {kind : ValueKind} {ids : Set String} {k : String} {w : ℤ → String} {v : Value}

theorem ValueKind.equal_str_int (kind : ValueKind) (k : String) (n : ℤ) :
    kind.equal (.str k) (.int n) = false := by
  simp [equal, Json.same, compare?, Json.asNumber?]

theorem ValueKind.equal_str_arr (kind : ValueKind) (k : String) (xs : List Json) :
    kind.equal (.str k) (.arr xs) = false := by
  simp [equal, Json.same, compare?, Json.asNumber?]

theorem equal_written (hk : k ∈ ids) (h : ∀ n, v = .int n → Unequal kind ids w n) :
    kind.equal (.str k) (v.written w).toJson = kind.equal (.str k) v.toJson := by
  cases v with
  | int n => exact (h n rfl k hk).trans (kind.equal_str_int k n).symm
  | null | bool | float | str | item | bytes | list | object => rfl

namespace Argument

theorem equal_writtenOperand (hk : k ∈ ids) (h : ∀ n, .int n ∈ operands v → Unequal kind ids w n) :
    kind.equal (.str k) (writtenOperand w v).toJson = kind.equal (.str k) v.toJson := by
  cases v with
  | list vs =>
    rw [writtenOperand, Value.toJson, Value.toJson, kind.equal_str_arr, kind.equal_str_arr]
  | null | bool | int | float | str | item | bytes | object =>
    exact equal_written hk fun n hn => h n (List.mem_singleton.2 hn.symm)

theorem operandList_toJson (v : Value) : operandList v.toJson = (operands v).map Value.toJson := by
  cases v with
  | list vs => simp [Value.toJson, operandList, operands, Value.elemsToJson_eq]
  | null | bool | int | float | str | item | bytes | object => rfl

theorem operands_writtenOperand (v : Value) :
    operands (writtenOperand w v) = (operands v).map (Value.written w) := by
  cases v <;> rfl

theorem any_equal_writtenOperand (hk : k ∈ ids)
    (h : ∀ n, .int n ∈ operands v → Unequal kind ids w n) :
    (operandList (writtenOperand w v).toJson).any (kind.equal (.str k)) =
      (operandList v.toJson).any (kind.equal (.str k)) := by
  simp only [operandList_toJson, operands_writtenOperand, List.any_map]
  rw [Bool.eq_iff_iff, List.any_eq_true, List.any_eq_true]
  refine exists_congr fun x => and_congr_right fun hx => ?_
  exact Eq.congr_left (equal_written hk fun n hn => h n (hn ▸ hx))

theorem isNull_writtenOperand (w : ℤ → String) (v : Value) :
    (writtenOperand w v).toJson.isNull = v.toJson.isNull := by
  cases v <;> rfl

end Argument

end Conditions

/-! ### Filters that agree -/

/-- Two filters let the same of certain records pass. -/
def Filter.AgreeOn (P : Json → Prop) (f g : Filter) : Prop :=
  ∀ record, P record → f.passes record = g.passes record

namespace Filter

variable {P : Json → Prop} {fs gs : List Filter}

theorem AgreeOn.refl (f : Filter) : AgreeOn P f f := fun _ _ => rfl

theorem map_passes_eq (h : List.Forall₂ (AgreeOn P) fs gs) {record : Json} (hr : P record) :
    fs.map (passes record) = gs.map (passes record) := by
  induction h with
  | nil => rfl
  | cons hfg _ ih => rw [List.map_cons, List.map_cons, hfg record hr, ih]

theorem AgreeOn.conj (h : List.Forall₂ (AgreeOn P) fs gs) : AgreeOn P (conj fs) (conj gs) := by
  intro record hr
  have hall := congrArg (fun bs => ∀ b ∈ bs, b = true) (map_passes_eq h hr)
  simp only [List.forall_mem_map] at hall
  rw [Bool.eq_iff_iff, passes_conj, passes_conj, hall]

theorem AgreeOn.or (h : List.Forall₂ (AgreeOn P) fs gs) : AgreeOn P (.or fs) (.or gs) := by
  intro record hr
  have hany := congrArg (List.any · id) (map_passes_eq h hr)
  simp only [List.any_map] at hany
  rw [passes_or, passes_or]
  exact hany

theorem forall₂_disjunction (h : List.Forall₂ (AgreeOn P) fs gs) :
    List.Forall₂ (AgreeOn P) (Argument.disjunction fs) (Argument.disjunction gs) := by
  cases h with
  | nil => exact .nil
  | cons hfg h => exact .cons (.or (.cons hfg h)) .nil

end Filter

/-- The identifier of a record is in a set. -/
def Json.IdIn (ids : Set String) (record : Json) : Prop :=
  ∃ k ∈ ids, record.get? idField = some (.str k)

theorem Record.valueAt_idField {record : Json} {k : String}
    (h : record.get? idField = some (.str k)) : valueAt record idField = .str k := by
  rw [valueAt, lookup?_of_plain (by decide), h, Option.getD_some]

namespace Argument

section Joining

variable {P : Json → Prop} {ks : FieldKinds}

/-- Lists of filters that are made one by one, or refused. -/
abbrev AlikeOn (P : Json → Prop) : (x y : Except ArgumentError (List Filter)) → Prop :=
  Alike (List.Forall₂ (Filter.AgreeOn P))

theorem AlikeOn.append {x y x' y' : Except ArgumentError (List Filter)} :
    AlikeOn P x y → AlikeOn P x' y' → AlikeOn P
      (match x with | .error e => .error e | .ok fs => x'.map (fs ++ ·))
      (match y with | .error e => .error e | .ok fs => y'.map (fs ++ ·)) := by
  intro h h'
  cases h with
  | error e => exact .error e
  | ok h => exact h'.map fun fs gs hfg => List.rel_append h hfg

theorem operatorFilters_alike {field : String} {kind : ValueKind} {operator operator' : String}
    {v v' : Value} {os os' : List (String × Value)}
    (h : Alike (Option.Rel fun c d => Filter.AgreeOn P (.field field c kind) (.field field d kind))
      (condition operator v) (condition operator' v'))
    (hos : AlikeOn P (operatorFilters field kind os) (operatorFilters field kind os')) :
    AlikeOn P (operatorFilters field kind ((operator, v) :: os))
      (operatorFilters field kind ((operator', v') :: os')) := by
  rw [operatorFilters, operatorFilters]
  generalize condition operator v = x at h
  generalize condition operator' v' = y at h
  cases h with
  | error e => exact .error e
  | ok h =>
    refine hos.map fun fs gs hfg => ?_
    cases h with
    | none => exact hfg
    | some hcd => exact .cons hcd hfg

theorem filterItems_alike {w : ℤ → String} {vs : List Value}
    (h : ∀ v ∈ vs, Alike (Filter.AgreeOn P) (filter ks v) (filter ks (written w v))) :
    AlikeOn P (filterItems ks vs) (filterItems ks (writtenItems w vs)) := by
  induction vs with
  | nil => exact .ok .nil
  | cons v vs ih =>
    obtain ⟨hv, hvs⟩ := List.forall_mem_cons.1 h
    rw [writtenItems, filterItems, filterItems]
    generalize filter ks v = x at hv
    generalize filter ks (written w v) = y at hv
    cases hv with
    | error e => exact .error e
    | ok hv => exact (ih hvs).map fun fs gs hfg => .cons hv hfg

theorem filterList_alike {w : ℤ → String} {v : Value}
    (h : ∀ x ∈ listed v, Alike (Filter.AgreeOn P) (filter ks x) (filter ks (written w x))) :
    AlikeOn P (filterList ks v) (filterList ks (writtenList w v)) := by
  cases v with
  | null => exact .ok .nil
  | list vs => exact filterItems_alike h
  | object fs =>
    have hfs := h (.object fs) List.mem_cons_self
    rw [writtenList, filterList_object, filterList_object]
    exact hfs.map fun f g hfg => .cons hfg .nil
  | bool | int | float | str | item | bytes => exact .error _

end Joining

section Identifiers

variable {ks : FieldKinds} {ids : Set String} {w : ℤ → String}

/-- Conditions that say the same of every identifier make filters that agree. -/
theorem agreeOn_field {kind : ValueKind} {c d : Condition}
    (h : ∀ k ∈ ids, c.holds kind (.str k) = d.holds kind (.str k)) :
    Filter.AgreeOn (Json.IdIn ids) (.field idField c kind) (.field idField d kind) := by
  intro record hr
  obtain ⟨k, hk, hid⟩ := hr
  rw [Filter.passes, Filter.passes, Record.valueAt_idField hid, h k hk]

/-- The condition of an operator that asks for equality keeps what it says of identifiers. -/
theorem condition_written {kind : ValueKind} {operator : String} {v : Value}
    (hop : operator ∈ equalities) (h : ∀ n, .int n ∈ operands v → Unequal kind ids w n) :
    Alike (Option.Rel fun c d =>
        Filter.AgreeOn (Json.IdIn ids) (.field idField c kind) (.field idField d kind))
      (condition operator v) (condition operator (writtenOperand w v)) := by
  have hequal : ∀ k ∈ ids, kind.equal (.str k) v.toJson =
      kind.equal (.str k) (writtenOperand w v).toJson :=
    fun k hk => (equal_writtenOperand hk h).symm
  have hany : ∀ k ∈ ids, (operandList v.toJson).any (kind.equal (.str k)) =
      (operandList (writtenOperand w v).toJson).any (kind.equal (.str k)) :=
    fun k hk => (any_equal_writtenOperand hk h).symm
  simp only [equalities, List.mem_cons, List.not_mem_nil, or_false] at hop
  rcases hop with rfl | rfl | rfl | rfl
  · exact .ok (.some (agreeOn_field hequal))
  · exact .ok (.some (agreeOn_field fun k hk => congrArg not (hequal k hk)))
  · simp only [condition, isNull_writtenOperand, String.reduceEq, if_false]
    split
    · exact .ok .none
    · exact .ok (.some (agreeOn_field hany))
  · simp only [condition, isNull_writtenOperand, String.reduceEq, if_false]
    split
    · exact .ok .none
    · exact .ok (.some (agreeOn_field fun k hk => congrArg not (hany k hk)))

theorem operatorFilters_written {kind : ValueKind} {os : List (String × Value)}
    (h : ∀ o ∈ os, o.1 ∈ equalities → ∀ n, .int n ∈ operands o.2 → Unequal kind ids w n) :
    AlikeOn (Json.IdIn ids) (operatorFilters idField kind os) (operatorFilters idField kind
      (os.map fun o => if o.1 ∈ equalities then (o.1, writtenOperand w o.2) else o)) := by
  induction os with
  | nil => exact .ok .nil
  | cons o os ih =>
    obtain ⟨ho, hos⟩ := List.forall_mem_cons.1 h
    rw [List.map_cons]
    split
    · rename_i hop
      exact operatorFilters_alike (condition_written hop (ho hop)) (ih hos)
    · refine operatorFilters_alike (.refl (fun c => ?_) _) (ih hos)
      cases c with
      | none => exact .none
      | some c => exact .some (.refl _)

theorem fieldFilters_written {v : Value}
    (h : ∀ os, v = .object os → ∀ o ∈ os, o.1 ∈ equalities → ∀ n, .int n ∈ operands o.2 →
      Unequal (ks.kind idField) ids w n) :
    AlikeOn (Json.IdIn ids) (fieldFilters ks idField v)
      (fieldFilters ks idField (writtenOperators w v)) := by
  cases v with
  | null => exact .ok .nil
  | object os => exact operatorFilters_written (h os rfl)
  | bool | int | float | str | item | bytes | list => exact .error _

theorem filterParts_written {fs : List (String × Value)}
    (hfield : ∀ n, Compares (.object fs) n → Unequal (ks.kind idField) ids w n)
    (hlisted : ∀ e ∈ fs, e.1 = andKey ∨ e.1 = orKey → ∀ v ∈ listed e.2,
      Alike (Filter.AgreeOn (Json.IdIn ids)) (filter ks v) (filter ks (written w v))) :
    AlikeOn (Json.IdIn ids) (filterParts ks fs) (filterParts ks (writtenParts w fs)) := by
  induction fs with
  | nil => exact .ok .nil
  | cons e fs ih =>
    obtain ⟨key, v⟩ := e
    obtain ⟨hv, hrest⟩ := List.forall_mem_cons.1 hlisted
    rw [writtenParts, filterParts, filterParts]
    refine AlikeOn.append ?_ (ih (fun n hn => hfield n hn.cons) hrest)
    by_cases hand : key = andKey
    · rw [if_pos hand, if_pos hand, if_pos (.inl hand)]
      exact (filterList_alike (hv (.inl hand))).map fun fs gs hfg => .cons (.conj hfg) .nil
    by_cases hor : key = orKey
    · rw [if_neg hand, if_neg hand, if_pos hor, if_pos hor, if_pos (.inr hor)]
      exact (filterList_alike (hv (.inr hor))).map fun fs gs => Filter.forall₂_disjunction
    rw [if_neg hand, if_neg hand, if_neg hor, if_neg hor, if_neg (not_or.2 ⟨hand, hor⟩)]
    by_cases hid : key = idField
    · subst hid
      rw [if_pos rfl]
      refine fieldFilters_written fun os hos o ho heq n hn => hfield n ?_
      subst hos
      exact .here List.mem_cons_self ho heq hn
    · rw [if_neg hid]
      exact .refl (fun fs => List.forall₂_same.2 fun f _ => .refl f) _

/-- **Integers may be written as any text that equals no identifier.** The argument is refused as
before, or its filter lets the same records with these identifiers pass. -/
theorem filter_written {v : Value}
    (h : ∀ n, Compares v n → Unequal (ks.kind idField) ids w n) :
    Alike (Filter.AgreeOn (Json.IdIn ids)) (filter ks v) (filter ks (written w v)) := by
  -- the filters listed in an object stand two levels below it, so the induction is on the size
  induction hn : sizeOf v using Nat.strongRecOn generalizing v with
  | ind n ih =>
    subst hn
    cases v with
    | null => exact .ok (.refl _)
    | object fs =>
      rw [written, filter, filter]
      refine (filterParts_written h fun e he hkey v hv => ?_).map fun ps qs => Filter.AgreeOn.conj
      exact ih _ (sizeOf_listed he hv) (fun n hn => h n (.joined he hkey hv hn)) rfl
    | bool | int | float | str | item | bytes | list => exact .error _

end Identifiers

end Argument

end EntityGraph
