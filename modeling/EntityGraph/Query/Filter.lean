import EntityGraph.Json.Basic

/-!
Filters over records: conditions on single fields, joined by "and" and "or". A condition carries
how the values of its field compare.
-/

namespace EntityGraph

/-- How the texts of a field compare: character by character, or by instant where both sides are
timestamps. -/
inductive ValueKind where
  | plain
  | timestamp
deriving DecidableEq, Repr, Inhabited

/-- A comparison applied to one field. -/
inductive Condition where
  | eq (operand : Json)
  | ne (operand : Json)
  | gt (bound : Json)
  | gte (bound : Json)
  | lt (bound : Json)
  | lte (bound : Json)
  | oneOf (allowed : List Json)
  | noneOf (excluded : List Json)
deriving Repr, Inhabited

/-- The operator of a condition, as arguments write it. -/
def Condition.operator : Condition → String
  | .eq _ => "eq"
  | .ne _ => "ne"
  | .gt _ => "gt"
  | .gte _ => "gte"
  | .lt _ => "lt"
  | .lte _ => "lte"
  | .oneOf _ => "in"
  | .noneOf _ => "nin"

/-- A filter over records. -/
inductive Filter where
  | all
  | and (children : List Filter)
  | or (children : List Filter)
  | field (name : String) (condition : Condition) (kind : ValueKind)
deriving Repr, Inhabited

namespace Filter

/-- The filter that lets every record pass. -/
def isAll : Filter → Bool
  | .all => true
  | _ => false

/-- The filters that do restrict. -/
def restricting (fs : List Filter) : List Filter := fs.filter fun f => !f.isAll

/-- The conjunction of filters, without children that let every record pass and without a
conjunction around a single child. -/
def conj (fs : List Filter) : Filter :=
  match restricting fs with
  | [] => .all
  | [f] => f
  | fs => .and fs

@[simp] theorem restricting_nil : restricting [] = [] := rfl

theorem mem_restricting {f : Filter} {fs : List Filter} :
    f ∈ restricting fs ↔ f ∈ fs ∧ f.isAll = false := by
  simp [restricting]

@[simp] theorem conj_nil : conj [] = .all := rfl

end Filter

end EntityGraph
