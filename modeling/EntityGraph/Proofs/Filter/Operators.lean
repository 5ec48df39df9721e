import EntityGraph.Proofs.Filter.Meaning
import EntityGraph.Proofs.Record.Equality

/-!
How the operators on one field go together. The negative operators deny the positive ones, and `in`
is `eq` for some member of a list. Next to a number, a boolean or a text equality is a comparison
that ends in a draw: so the ordered operators that admit equality are met just when the strict one
or equality is, on lists too, and of two values of one class exactly one stands to the other in each
of the three ways.
-/

namespace EntityGraph

/-! ### Conditions -/

namespace Condition

variable (kind : ValueKind) (v : Json) {b : Json}

/-- The condition that a value stands to a bound in one order. -/
def standing (bound : Json) : Ordering → Condition
  | .lt => .lt bound
  | .eq => .eq bound
  | .gt => .gt bound

theorem holds_noneOf (es : List Json) :
    (noneOf es).holds kind v = !(oneOf es).holds kind v := rfl

theorem holds_ne (e : Json) : (ne e).holds kind v = !(eq e).holds kind v := rfl

/-- Among the elements of a list and the operands of a condition, the order of looking makes no
difference. -/
theorem holds_oneOf (es : List Json) :
    (oneOf es).holds kind v = true ↔ ∃ e ∈ es, (eq e).holds kind v = true := by
  simp only [holds, Json.anyElement_iff, List.any_eq_true]
  constructor
  · rintro ⟨x, hx, e, he, hequal⟩
    exact ⟨e, he, x, hx, hequal⟩
  · rintro ⟨e, he, x, hx, hequal⟩
    exact ⟨x, hx, e, he, hequal⟩

/-- What a condition looks at compares with its bound. -/
theorem holds_standing (hb : b.class? ≠ none) (o : Ordering) :
    (standing b o).holds kind v = true ↔ ∃ x ∈ v.candidates, kind.compare? x b = some o := by
  cases o with
  | eq => simp [standing, holds, Json.anyElement_iff, kind.equal_iff_of_class? hb]
  | lt | gt => simp [standing, holds, Json.anyElement_iff, ordered_iff]

/-- An ordered operator is met when the value stands to the bound in one of its orders. -/
theorem anyElement_ordered_iff (hb : b.class? ≠ none) (accept : List Ordering) :
    v.anyElement (ordered kind accept b) = true ↔
      ∃ o ∈ accept, (standing b o).holds kind v = true := by
  simp only [holds_standing kind v hb, Json.anyElement_iff, ordered_iff]
  constructor
  · rintro ⟨x, hx, o, ho, hcompare⟩
    exact ⟨o, ho, x, hx, hcompare⟩
  · rintro ⟨o, ho, x, hx, hcompare⟩
    exact ⟨x, hx, o, ho, hcompare⟩

theorem holds_gte (hb : b.class? ≠ none) :
    (gte b).holds kind v = true ↔
      (gt b).holds kind v = true ∨ (eq b).holds kind v = true := by
  refine (anyElement_ordered_iff kind v hb [.gt, .eq]).trans ?_
  simp [standing]

theorem holds_lte (hb : b.class? ≠ none) :
    (lte b).holds kind v = true ↔
      (lt b).holds kind v = true ∨ (eq b).holds kind v = true := by
  refine (anyElement_ordered_iff kind v hb [.lt, .eq]).trans ?_
  simp [standing]

/-- A value of the class of a bound is looked at itself, and stands to the bound in one way. -/
theorem existsUnique_standing (hb : b.class? ≠ none) (h : v.class? = b.class?) :
    ∃! o, (standing b o).holds kind v = true := by
  have hone : v.candidates = [v] := by
    cases v with
    | arr => exact absurd h.symm hb
    | _ => rfl
  obtain ⟨o, ho⟩ := kind.exists_compare? hb h
  refine ⟨o, ?_, fun o' ho' => ?_⟩
  · exact (holds_standing kind v hb o).2 ⟨v, hone ▸ List.mem_singleton_self v, ho⟩
  · obtain ⟨x, hx, hcompare⟩ := (holds_standing kind v hb o').1 ho'
    obtain rfl := List.mem_singleton.1 (hone ▸ hx)
    exact Option.some.inj (hcompare.symm.trans ho)

end Condition

/-- **How the conditions on a field go together**, whatever the record holds there: nothing, a value
or a list. `nin` and `ne` are met just when `in` and `eq` are not, and `in` is met when `eq` is met
for a member of its list. For a bound that is a number, a boolean or a text, `gte` and `lte` are met
just when the strict operator or `eq` is; and when the field holds one value, of the class of the
bound, exactly one of `lt`, `eq` and `gt` is met. -/
theorem conditions_related (kind : ValueKind) (record : Json) (path : String) :
    let meets := fun c : Condition => (Filter.field path c kind).passes record
    (∀ es, meets (.noneOf es) = !meets (.oneOf es)) ∧
    (∀ e, meets (.ne e) = !meets (.eq e)) ∧
    (∀ es, meets (.oneOf es) = true ↔ ∃ e ∈ es, meets (.eq e) = true) ∧
    (∀ b, b.class? ≠ none →
      (meets (.gte b) = true ↔ meets (.gt b) = true ∨ meets (.eq b) = true) ∧
      (meets (.lte b) = true ↔ meets (.lt b) = true ∨ meets (.eq b) = true)) ∧
    (∀ b v, b.class? ≠ none → Record.lookup? record path = some v → v.class? = b.class? →
      ∃! o, meets (.standing b o) = true) := by
  intro meets
  have hmeets : ∀ c, meets c = c.holds kind (Record.valueAt record path) := fun c => rfl
  simp only [hmeets]
  refine ⟨Condition.holds_noneOf kind _, Condition.holds_ne kind _, Condition.holds_oneOf kind _,
    fun b hb => ⟨Condition.holds_gte kind _ hb, Condition.holds_lte kind _ hb⟩,
    fun b v hb hv hclass => ?_⟩
  have hvalue : Record.valueAt record path = v := by rw [Record.valueAt, hv, Option.getD_some]
  exact hvalue ▸ Condition.existsUnique_standing kind v hb hclass

/-- A talk has one day and, some of them not fixed yet, several dates. -/
theorem conditions_related_talk :
    let talk : Json := .obj [("day", .str "2024-03-01T00:00:00Z"),
      ("dates", .arr [.str "soon", .str "2024-03-01T01:00:00+01:00"])]
    let bound : Json := .str "2024-03-01T00:00:00Z"
    let meets := fun path (c : Condition) => (Filter.field path c .timestamp).passes talk
    bound.class? ≠ none ∧ Record.lookup? talk "day" = some bound ∧
      meets "dates" (.eq bound) = true ∧ meets "dates" (.lte bound) = true ∧
      meets "dates" (.noneOf [.null, bound]) = false ∧
      ∃! o, meets "day" (.standing bound o) = true := by
  intro talk bound meets
  have hclass : bound.class? ≠ none := by decide
  have hday : Record.lookup? talk "day" = some bound := Record.lookup?_of_plain (by decide) talk
  obtain ⟨-, -, -, -, hone⟩ := conditions_related .timestamp talk "day"
  obtain ⟨hnin, -, hin, hordered, -⟩ := conditions_related .timestamp talk "dates"
  have heq : meets "dates" (.eq bound) = true := by decide +kernel
  refine ⟨hclass, hday, heq, (hordered bound hclass).2.2 (.inr heq), ?_,
    hone bound bound hclass hday rfl⟩
  have hmember : meets "dates" (.oneOf [.null, bound]) = true :=
    (hin _).2 ⟨bound, List.mem_cons_of_mem _ List.mem_cons_self, heq⟩
  exact (hnin _).trans (congrArg not hmember)

end EntityGraph
