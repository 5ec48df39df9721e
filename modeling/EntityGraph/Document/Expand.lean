import EntityGraph.Document.Basic
import EntityGraph.Graph.Directive

/-!
Expanding fragments: every named fragment is replaced by a fragment in place. A document whose
selections nest too deeply, fragments included, is not expanded; so a fragment that contains
itself never is.
-/

namespace EntityGraph

/-- How deep selections may nest below the selections of an operation. -/
def nestingLimit : Nat := 32

namespace Document

variable (d : Document)

/-- What one selection becomes, given how the selections inside it are expanded. A fragment that is
unknown becomes nothing. -/
def expandSelection (inside : List Selection → Option (List Selection)) :
    Selection → Option (List Selection)
  | .field aliasName name args ds [] => some [.field aliasName name args ds []]
  | .field aliasName name args ds ss =>
    (inside ss).map fun ss => [.field aliasName name args ds ss]
  | .inline on ds ss => (inside ss).map fun ss => [.inline on ds ss]
  | .spread name ds =>
    match d.fragment? name with
    | none => some []
    | some f => (inside f.selections).map fun ss => [.inline (some f.on) ds ss]

/-- The selections with fragments in place, when they nest less than so many levels. -/
def expandWithin : Nat → List Selection → Option (List Selection)
  | 0, _ => none
  | n + 1, ss => (ss.mapM (d.expandSelection (expandWithin n))).map List.flatten

/-- The selections of an operation with fragments in place. -/
def expand (o : Operation) : Option (List Selection) := d.expandWithin (nestingLimit + 1) o.selections

end Document

/-! ### Skipped selections -/

namespace Directive

/-- The condition of a directive holds. A variable without a value does not. -/
def condition (lookup : String → Option Value) (d : Directive) : Bool :=
  match (Fields.get? d.arguments DirectiveDef.conditionKey).bind fun l => l.value? lookup with
  | some (.bool b) => b
  | _ => false

/-- The directive leaves its selection out. -/
def leavesOut (lookup : String → Option Value) (d : Directive) : Bool :=
  if d.name = "skip" then d.condition lookup
  else if d.name = "include" then !d.condition lookup
  else false

end Directive

namespace Selection

/-- The directives of a selection. -/
def directives : Selection → List Directive
  | .field _ _ _ ds _ => ds
  | .spread _ ds => ds
  | .inline _ ds _ => ds

/-- A directive leaves the selection out. -/
def isLeftOut (lookup : String → Option Value) (s : Selection) : Bool :=
  s.directives.any fun d => d.leavesOut lookup

mutual

/-- The selections that stay. -/
def keepAll (lookup : String → Option Value) : List Selection → List Selection
  | [] => []
  | s :: ss =>
    if s.isLeftOut lookup then keepAll lookup ss else keep lookup s :: keepAll lookup ss

/-- A selection that stays, with those of its selections that stay. -/
def keep (lookup : String → Option Value) : Selection → Selection
  | .field aliasName name args ds ss => .field aliasName name args ds (keepAll lookup ss)
  | .spread name ds => .spread name ds
  | .inline on ds ss => .inline on ds (keepAll lookup ss)

end

/-! ### Size -/

/-- The field that names the type of an object. -/
def typenameField : String := "__typename"

mutual

/-- The number of fields of selections without named fragments. -/
def complexityAll : List Selection → Nat
  | [] => 0
  | s :: ss => complexity s + complexityAll ss

def complexity : Selection → Nat
  | .field _ name _ _ ss => if name = typenameField then 0 else 1 + complexityAll ss
  | .spread .. => 0
  | .inline _ _ ss => complexityAll ss

end

mutual

/-- How deep the fields of selections without named fragments nest. -/
def depthAll : List Selection → Nat
  | [] => 0
  | s :: ss => max (depth s) (depthAll ss)

def depth : Selection → Nat
  | .field _ name _ _ ss => if name = typenameField then 0 else 1 + depthAll ss
  | .spread .. => 0
  | .inline _ _ ss => depthAll ss

end

end Selection

end EntityGraph
