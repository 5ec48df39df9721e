import EntityGraph.Record.Compare

/-!
Which records pass a filter. A condition on a field that holds a list is met when an element
meets it; the negative conditions are met when no element meets the positive one. A missing field
counts as null.
-/

namespace EntityGraph

/-- Some element of a list meets a test, or the value itself when it is no list. -/
def Json.anyElement (v : Json) (test : Json → Bool) : Bool :=
  match v with
  | .arr xs => xs.any test
  | v => test v

namespace Condition

/-- A value stands to a bound in one of the given orders. -/
def ordered (kind : ValueKind) (accept : List Ordering) (bound v : Json) : Bool :=
  match kind.compare? v bound with
  | some o => accept.contains o
  | none => false

/-- A value meets a condition. -/
def holds (kind : ValueKind) (v : Json) : Condition → Bool
  | .eq e => v.anyElement fun x => kind.equal x e
  | .ne e => !v.anyElement fun x => kind.equal x e
  | .gt b => v.anyElement (ordered kind [.gt] b)
  | .gte b => v.anyElement (ordered kind [.gt, .eq] b)
  | .lt b => v.anyElement (ordered kind [.lt] b)
  | .lte b => v.anyElement (ordered kind [.lt, .eq] b)
  | .oneOf es => v.anyElement fun x => es.any (kind.equal x)
  | .noneOf es => !v.anyElement fun x => es.any (kind.equal x)

end Condition

namespace Filter

mutual

/-- A record passes a filter. -/
def passes (record : Json) : Filter → Bool
  | .all => true
  | .and fs => allPass record fs
  | .or fs => anyPasses record fs
  | .field name c kind => c.holds kind (Record.valueAt record name)

/-- A record passes all filters of a list. -/
def allPass (record : Json) : List Filter → Bool
  | [] => true
  | f :: fs => passes record f && allPass record fs

/-- A record passes some filter of a list. -/
def anyPasses (record : Json) : List Filter → Bool
  | [] => false
  | f :: fs => passes record f || anyPasses record fs

end

theorem allPass_eq (record : Json) (fs : List Filter) :
    allPass record fs = fs.all (passes record) := by
  induction fs with
  | nil => rfl
  | cons f fs ih => simp [allPass, ih]

theorem anyPasses_eq (record : Json) (fs : List Filter) :
    anyPasses record fs = fs.any (passes record) := by
  induction fs with
  | nil => rfl
  | cons f fs ih => simp [anyPasses, ih]

theorem passes_and (record : Json) (fs : List Filter) :
    passes record (.and fs) = fs.all (passes record) := by
  rw [passes, allPass_eq]

theorem passes_or (record : Json) (fs : List Filter) :
    passes record (.or fs) = fs.any (passes record) := by
  rw [passes, anyPasses_eq]

end Filter

end EntityGraph
