import EntityGraph.Query.Filter
import EntityGraph.Timestamp

/-!
Comparing the values of records. Numbers compare in the precision of a double, booleans with
false first, and texts by their kind; values of different classes do not compare. Two values are
equal when they are the same JSON or compare as equal.
-/

namespace EntityGraph

namespace ValueKind

/-- The order of two texts. On a timestamp field two timestamps compare by instant. -/
def compareTexts (kind : ValueKind) (a b : String) : Ordering :=
  match kind with
  | .plain => compare a b
  | .timestamp => (Timestamp.compareTexts? a b).getD (compare a b)

/-- The order of two values of one class. -/
def compare? (kind : ValueKind) : Json → Json → Option Ordering
  | .str a, .str b => some (kind.compareTexts a b)
  | .bool a, .bool b => some (compare a b)
  | a, b =>
    match a.asNumber?, b.asNumber? with
    | some x, some y => some (x.compare y)
    | _, _ => none

/-- Equality of values. -/
def equal (kind : ValueKind) (a b : Json) : Bool :=
  a.same b || kind.compare? a b == some .eq

end ValueKind

/-! ### Looking up a path -/

namespace Record

/-- The segments of a path between its points. -/
def segments : List Char → List (List Char)
  | [] => [[]]
  | c :: cs =>
    match segments cs with
    | [] => [[c]]
    | s :: ss => if c = '.' then [] :: s :: ss else (c :: s) :: ss

/-- Follows keys through objects. -/
def follow? : List String → Json → Option Json
  | [], v => some v
  | k :: ks, v => (v.get? k).bind (follow? ks)

/-- The keys of a path. -/
def pathKeys (path : String) : List String := (segments path.toList).map String.ofList

/-- The value of a record at a path. -/
def lookup? (record : Json) (path : String) : Option Json := follow? (pathKeys path) record

/-- The value of a record at a path, null when there is none. -/
def valueAt (record : Json) (path : String) : Json := (lookup? record path).getD .null

/-- A path without a point is one key. -/
theorem segments_eq_singleton {cs : List Char} (h : '.' ∉ cs) : segments cs = [cs] := by
  induction cs with
  | nil => rfl
  | cons c cs ih =>
    have hc : c ≠ '.' := fun e => h (e ▸ List.mem_cons_self)
    rw [segments, ih fun hm => h (List.mem_cons_of_mem _ hm)]
    simp [hc]

theorem lookup?_of_plain {path : String} (h : '.' ∉ path.toList) (record : Json) :
    lookup? record path = record.get? path := by
  simp [lookup?, pathKeys, segments_eq_singleton h, follow?]

end Record

end EntityGraph
