import EntityGraph.Query.Filter

/-!
Queries for lists of records: a filter, sort keys in order of precedence, and a page.
-/

namespace EntityGraph

/-- The direction of a sort key. -/
inductive SortDirection where
  | ascending
  | descending
deriving DecidableEq, Repr, Inhabited

/-- One key to sort by. -/
structure SortKey where
  field : String
  direction : SortDirection
  kind : ValueKind
deriving DecidableEq, Repr, Inhabited

/-- A query for a list of records. -/
structure FindQuery where
  filter : Filter
  sort : List SortKey
  skip : Option Nat
  limit : Option Nat
deriving Repr, Inhabited

/-- All records in natural order. -/
def FindQuery.everything : FindQuery := ⟨.all, [], none, none⟩

/-- The first record that passes a filter. -/
def FindQuery.first (f : Filter) : FindQuery := ⟨f, [], none, some 1⟩

/-- The elements of a list from `skip` on, at most `limit` of them. -/
def page {α : Type} (skip limit : Option Nat) (xs : List α) : List α :=
  let xs := xs.drop (skip.getD 0)
  match limit with
  | some n => xs.take n
  | none => xs

end EntityGraph
