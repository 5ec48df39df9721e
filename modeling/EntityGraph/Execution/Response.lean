import EntityGraph.Graph.Error

/-!
Responses: the data of an answer, the errors met on the way, and how values that answer to the
same name are merged.
-/

namespace EntityGraph

/-- A step from a value into it: the name of a field, or the place in a list. -/
inductive PathStep where
  | key (name : String)
  | index (n : Nat)
deriving DecidableEq, Repr

/-- Why a field lacks an argument: a variable has no value, or the value is not of its type. -/
inductive ArgumentFault where
  | unset (name : String)
  | mistyped (type : String) (found : Value)
deriving Repr

/-- The text of a fault. -/
def ArgumentFault.message : ArgumentFault → String
  | .unset n => "Variable " ++ n ++ " is not defined."
  | .mistyped t v => "Expected input type \"" ++ t ++ "\", found " ++ v.text ++ "."

/-- An error of an answer: one that a resolver raised, an argument that a field lacks, or a value
that does not fit its type. -/
inductive ResponseError where
  | resolver (e : ApiError)
  | argument (path : List PathStep) (fault : ArgumentFault)
  | misfit (path : List PathStep)
deriving Repr

/-- Nothing but its text tells what an error is about. -/
def ResponseError.isBare : ResponseError → Bool
  | .argument [] _ => true
  | _ => false

/-- Why a request is not answered. A breakdown leaves the host unable to answer any. -/
inductive Rejection where
  | invalid
  | complexity
  | depth
  | breakdown
deriving DecidableEq, Repr

/-- The answer to a request. -/
inductive Response where
  | rejected (r : Rejection)
  | answered (data : Value) (errors : List ResponseError)
deriving Repr

/-! ### Merging -/

namespace Value

mutual

/-- Merges a later value into an earlier one: objects key by key, lists of objects place by place,
and otherwise the earlier one stays. -/
def merge : Value → Value → Value
  | old, .object gs =>
    match old with
    | .object fs => .object (mergeFields fs gs)
    | v => v
  | old, .list ws =>
    match old with
    | .list vs => .list (mergeElems vs ws)
    | v => v
  | old, _ => old

/-- Merges objects of a later list into those of an earlier one. -/
def mergeElems : List Value → List Value → List Value
  | v :: vs, .object gs :: ws =>
    (match v with
      | .object fs => .object (mergeFields fs gs)
      | v => v) :: mergeElems vs ws
  | v :: vs, _ :: ws => v :: mergeElems vs ws
  | vs, _ => vs

/-- Writes later fields one after the other. -/
def mergeFields (fs : List (String × Value)) : List (String × Value) → List (String × Value)
  | [] => fs
  | (k, w) :: gs =>
    match Fields.get? fs k with
    | some v => mergeFields (Fields.insert fs k (merge v w)) gs
    | none => mergeFields (fs ++ [(k, w)]) gs

end

/-- The object of fields that were answered one after the other. Without any it is null. -/
def ofAnswers : List (String × Value) → Value
  | [] => .null
  | fs => .object (mergeFields [] fs)

end Value

/-- The response of a run that answered fields one after the other. A run without an answer and
with bare errors alone counts as invalid. -/
def Response.ofRun (answers : List (String × Value)) (errors : List ResponseError) : Response :=
  if answers.isEmpty && !errors.isEmpty && errors.all ResponseError.isBare then .rejected .invalid
  else .answered (.ofAnswers answers) errors

end EntityGraph
