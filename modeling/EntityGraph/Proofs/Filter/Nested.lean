import EntityGraph.Compile.Argument
import EntityGraph.Proofs.Filter.Meaning
import Mathlib.Data.Int.Notation
import Mathlib.Data.Nat.Notation

/-!
Conditions on nested lists. Filters offer an operator for every property that is a scalar under any
number of arrays, but a condition looks into one list only. So equality finds a scalar in a field
that holds scalars or a list of them, and never finds one that lies deeper.
-/

namespace EntityGraph

/-! ### Values of scalar types -/

/-- A scalar of a kind. Dates are texts. -/
inductive OfKind : ScalarKind → Json → Prop
  | string (s : String) : OfKind .string (.str s)
  | int (n : ℤ) : OfKind .number (.int n)
  | float (x : Binary64) : OfKind .number (.float x)
  | boolean (b : Bool) : OfKind .boolean (.bool b)
  | date (s : String) : OfKind .date (.str s)

/-- A value of a scalar type, or of arrays of it. Null may stand in place of any value. -/
inductive OfType : PropertyType → Json → Prop
  | null (t : PropertyType) : OfType t .null
  | scalar {k : ScalarKind} {v : Json} (h : OfKind k v) : OfType (.scalar k) v
  | array {t : PropertyType} {vs : List Json} (h : ∀ v ∈ vs, OfType t v) :
      OfType (.array t) (.arr vs)

/-- How many arrays a type has around its items. -/
def PropertyType.arrayDepth : PropertyType → ℕ
  | .array t => t.arrayDepth + 1
  | _ => 0

/-- The value is no list, and is reached from the other through lists only. -/
inductive AtBottom (x : Json) : Json → Prop
  | here (h : ∀ xs, x ≠ .arr xs) : AtBottom x x
  | inside {ys : List Json} {y : Json} (hy : y ∈ ys) (h : AtBottom x y) : AtBottom x (.arr ys)

section

variable {t : PropertyType} {k : ScalarKind} {v w x : Json}

theorem atBottom_arr {xs : List Json} : AtBottom x (.arr xs) ↔ ∃ y ∈ xs, AtBottom x y := by
  constructor
  · intro h
    cases h with
    | here h => exact absurd rfl (h xs)
    | inside hy h => exact ⟨_, hy, h⟩
  · rintro ⟨y, hy, h⟩
    exact .inside hy h

theorem atBottom_of_not_list (h : ∀ xs, w ≠ .arr xs) : AtBottom x w ↔ x = w := by
  constructor
  · intro hx
    cases hx with
    | here => rfl
    | inside => exact absurd rfl (h _)
  · rintro rfl
    exact .here h

/-- A scalar is no list. -/
theorem OfKind.not_list (h : OfKind k v) (xs : List Json) : v ≠ .arr xs := by
  cases h <;> exact Json.noConfusion

/-- A condition looks at a value itself, unless it is a list. -/
theorem Json.candidates_of_not_list (h : ∀ xs, w ≠ .arr xs) : w.candidates = [w] := by
  cases w with
  | arr xs => exact absurd rfl (h xs)
  | _ => rfl

/-- No scalar equals null or a list. -/
theorem OfKind.equal_eq_false (h : OfKind k v) (kind : ValueKind)
    (hx : x = .null ∨ ∃ xs, x = .arr xs) : kind.equal x v = false := by
  obtain rfl | ⟨xs, rfl⟩ := hx <;> cases h <;> rfl

namespace OfType

/-- Without an array in its type, a value is no list. -/
theorem not_list (h : OfType t w) (ht : t.arrayDepth = 0) (xs : List Json) : w ≠ .arr xs := by
  cases h with
  | null => exact Json.noConfusion
  | scalar h => exact h.not_list xs
  | array => cases ht

/-- Under one array at most, a condition looks at what lies at the bottom. -/
theorem atBottom_iff (h : OfType t w) (ht : t.arrayDepth ≤ 1) :
    AtBottom x w ↔ x ∈ w.candidates := by
  cases h with
  | null =>
    rw [atBottom_of_not_list fun _ => Json.noConfusion]
    exact List.mem_singleton.symm
  | scalar h =>
    rw [atBottom_of_not_list h.not_list, Json.candidates_of_not_list h.not_list,
      List.mem_singleton]
  | array hvs =>
    -- the elements are no lists themselves
    have hitem : ∀ y ∈ _, AtBottom x y ↔ x = y := fun y hy =>
      atBottom_of_not_list ((hvs y hy).not_list (Nat.le_zero.1 (Nat.le_of_succ_le_succ ht)))
    rw [atBottom_arr]
    constructor
    · rintro ⟨y, hy, hx⟩
      exact (hitem y hy).1 hx ▸ hy
    · intro hx
      exact ⟨x, hx, (hitem x hx).2 rfl⟩

/-- Under two arrays or more, a condition looks at nothing but lists and nulls. -/
theorem candidates_of_deep (h : OfType t w) (ht : 1 < t.arrayDepth) :
    ∀ x ∈ w.candidates, x = .null ∨ ∃ xs, x = .arr xs := by
  cases h with
  | null => exact fun x hx => .inl (List.mem_singleton.1 hx)
  | scalar => cases ht
  | array hvs =>
    intro x hx
    have hdepth := Nat.lt_of_succ_lt_succ ht
    cases hvs x hx with
    | null => exact .inl rfl
    | scalar => cases hdepth
    | array => exact .inr ⟨_, rfl⟩

/-- What a condition finds equal to a scalar lies under one array at most, and at the bottom. -/
theorem exists_candidate_iff (h : OfType t w) (hv : OfKind k v) (kind : ValueKind) :
    (∃ x ∈ w.candidates, kind.equal x v = true) ↔
      t.arrayDepth ≤ 1 ∧ ∃ x, AtBottom x w ∧ kind.equal x v = true := by
  by_cases ht : t.arrayDepth ≤ 1
  · simp only [ht, true_and, h.atBottom_iff ht]
  · refine iff_of_false ?_ fun hdepth => ht hdepth.1
    rintro ⟨x, hx, hequal⟩
    rw [hv.equal_eq_false kind (h.candidates_of_deep (Nat.not_le.1 ht) x hx)] at hequal
    cases hequal

end OfType

/-! ### Filters -/

/-- A property that is a scalar under arrays has an operator to filter by. -/
theorem Entity.mem_filterFields {e : Entity} {field : String} (ht : t.scalarLeaf? = some k)
    (h : (field, t) ∈ e.dataTypes) : (field, operatorInputName k) ∈ e.filterFields :=
  List.mem_cons_of_mem _ (List.mem_filterMap.2 ⟨(field, t), h, by rw [ht]; rfl⟩)

/-- **Equality sees through one array and no more.** Let a field hold a value of a type that is a
scalar under arrays. Every entity with such a property offers an operator for it. Yet a record
passes `eq` with a scalar of the kind just when the type has one array at most and the scalar equals
one at the bottom of the value, and it passes `ne` just when it does not pass `eq`: under two arrays
or more `eq` finds nothing, whatever lies at the bottom. -/
theorem equality_sees_one_array (ht : t.scalarLeaf? = some k) (hw : OfType t w) (hv : OfKind k v)
    (kind : ValueKind) {record : Json} {field : String}
    (hfield : Record.lookup? record field = some w) :
    (∀ e : Entity, (field, t) ∈ e.dataTypes → (field, operatorInputName k) ∈ e.filterFields) ∧
    ((Filter.field field (.eq v) kind).passes record = true ↔
      t.arrayDepth ≤ 1 ∧ ∃ x, AtBottom x w ∧ kind.equal x v = true) ∧
    ((Filter.field field (.ne v) kind).passes record = true ↔
      ¬ (t.arrayDepth ≤ 1 ∧ ∃ x, AtBottom x w ∧ kind.equal x v = true)) := by
  have hvalue : Record.valueAt record field = w := by rw [Record.valueAt, hfield]; rfl
  refine ⟨fun e he => Entity.mem_filterFields ht he, ?_, ?_⟩
  · rw [Filter.passes, hvalue, Condition.holds, Json.anyElement_iff]
    exact hw.exists_candidate_iff hv kind
  · rw [Filter.passes, hvalue, Condition.holds, Bool.not_eq_true', ← Bool.not_eq_true,
      Json.anyElement_iff]
    exact not_congr (hw.exists_candidate_iff hv kind)

end

/-- A chair whose tags are lists of lists: there is an operator for them, and it does not find the
only tag. -/
theorem equality_sees_one_array_tags :
    let type : PropertyType := .array (.array (.scalar .string))
    let value : Json := .arr [.arr [.str "wood"]]
    let chair : Entity := { Entity.bare "chair" with properties := [("tags", .plain type)] }
    let record : Json := .obj [("_id", .str "a"), ("tags", value)]
    type.scalarLeaf? = some .string ∧ OfType type value ∧ OfKind .string (.str "wood") ∧
    Record.lookup? record "tags" = some value ∧ AtBottom (.str "wood") value ∧
    ("tags", "StringFilter") ∈ chair.filterFields ∧
    ¬ (Filter.field "tags" (.eq (.str "wood")) .plain).passes record = true ∧
    (Filter.field "tags" (.ne (.str "wood")) .plain).passes record = true := by
  intro type value chair record
  have hitems : OfType (.array (.scalar .string)) (.arr [.str "wood"]) :=
    .array (List.forall_mem_singleton.2 (.scalar (.string _)))
  have hvalue : OfType type value := .array (List.forall_mem_singleton.2 hitems)
  have hlookup : Record.lookup? record "tags" = some value :=
    Record.lookup?_of_plain (by decide) record
  have hbottom : AtBottom (.str "wood") value :=
    .inside List.mem_cons_self (.inside List.mem_cons_self (.here fun _ => Json.noConfusion))
  obtain ⟨hoffered, heq, hne⟩ :=
    equality_sees_one_array rfl hvalue (.string "wood") .plain hlookup
  have hdeep : ¬ type.arrayDepth ≤ 1 := by decide
  exact ⟨rfl, hvalue, .string _, hlookup, hbottom, hoffered chair List.mem_cons_self,
    fun h => hdeep (heq.1 h).1, hne.2 fun h => hdeep h.1⟩

end EntityGraph
