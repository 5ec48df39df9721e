import EntityGraph.Query.Find
import EntityGraph.Record.Compare

/-!
Sorting records by keys in order of precedence. Missing and null values come first in ascending
order, values that do not compare count as equal, and records that are equal on every key keep
their order.

This determines the sorted list where the order of the keys is transitive on the records. It is not
transitive where values of different classes meet, or texts that are no timestamps stand between
timestamps: a text is equal to 2 and to 1, which are not equal. On such records no list need be
sorted, and no order is promised.
-/

namespace EntityGraph

namespace SortKey

/-- The value of a record at a sort key, unless it is missing or null. -/
def value? (k : SortKey) (record : Json) : Option Json :=
  (Record.lookup? record k.field).filter fun v => !v.isNull

/-- The ascending order of two values that may be missing. -/
def ascendingOrder (kind : ValueKind) : Option Json → Option Json → Ordering
  | none, none => .eq
  | none, some _ => .lt
  | some _, none => .gt
  | some a, some b => (kind.compare? a b).getD .eq

/-- The order of two records by one key. -/
def compare (k : SortKey) (a b : Json) : Ordering :=
  let o := ascendingOrder k.kind (k.value? a) (k.value? b)
  match k.direction with
  | .ascending => o
  | .descending => o.swap

end SortKey

/-- The order of two records: the first key that tells them apart decides. -/
def compareRecords : List SortKey → Json → Json → Ordering
  | [], _, _ => .eq
  | k :: ks, a, b => (k.compare a b).then (compareRecords ks a b)

section

variable {α : Type}

/-- Adds a value at the end of values, which are listed from the last to the first. It goes ahead of
those that it comes strictly before. -/
def insertLast (cmp : α → α → Ordering) (x : α) : List α → List α
  | [] => [x]
  | y :: ys => if cmp x y = .lt then y :: insertLast cmp x ys else x :: y :: ys

/-- Sorts values by adding one after the other. -/
def sortByInsertion (cmp : α → α → Ordering) (xs : List α) : List α :=
  (xs.foldl (fun sorted x => insertLast cmp x sorted) []).reverse

end

/-- The records, sorted by insertion. Where the order of the keys is transitive on them, this is
the one list that is stably sorted, and any stable sort finds it. Elsewhere it is the order that
insertion leaves them in, which is certain for up to twenty records only: with more of them a sort
may leave another order, or give up on them. -/
def sortRecords (keys : List SortKey) (records : List Json) : List Json :=
  sortByInsertion (compareRecords keys) records

end EntityGraph
