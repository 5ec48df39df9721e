import EntityGraph.Execution.Basic
import EntityGraph.Validation.Rules

/-!
Running selections. Fields are answered in the order they stand, each completely before the next.
A field that fails is left out of its object and its error is noted; what stands beside it is not
touched. An object of which no field is left is null. The field that leads to the description does
not count among the steps to a place inside it.
-/

namespace EntityGraph

/-- Where a value stands in an answer. -/
abbrev Path := List PathStep

/-- What becomes of a value: the value as it is answered, or the place that does not fit. -/
abbrev Completed := Except Path Value

/-! ### Arguments -/

namespace Literal

/-- The value of a literal, or the first variable without one. -/
def evaluate (lookup : String → Option Value) (l : Literal) : Except ArgumentFault Value :=
  match l.value? lookup with
  | some v => .ok v
  | none => .error (.unset ((l.unset? lookup).getD ""))

end Literal

namespace InputField

/-- The given value of an argument of the description, which has to be of its type. An argument
with a default value may be left out. -/
def valueOf? (f : InputField) (lookup : String → Option Value) (args : List (String × Literal)) :
    Except ArgumentFault (Option (String × Value)) :=
  match Fields.get? args f.name with
  | none => if f.default.isSome then .ok none else .error (.mistyped f.type.base .null)
  | some l => do
    let v ← l.evaluate lookup
    if scalarAccepts f.type.base v then .ok (some (f.name, v)) else .error (.mistyped f.type.base v)

end InputField

/-- The values of the arguments of a field. Those of records are passed on as they are. -/
def FieldDef.argumentsOf (f : FieldDef) (lookup : String → Option Value)
    (args : List (String × Literal)) : Except ArgumentFault Argument.Arguments :=
  if f.source.isDescriptive then
    (f.arguments.mapM fun a : InputField => a.valueOf? lookup args).map fun vs => vs.filterMap id
  else args.mapM fun a => (a.2.evaluate lookup).map fun v => (a.1, v)

namespace Run

variable {σ : Type}

/-! ### Completing values -/

/-- The values of a list, from a place in it on. The first that does not fit decides. -/
def completeItems (item : Path → Value → Run σ Completed) (path : Path) (place : Nat) :
    List Value → Run σ (Except Path (List Value))
  | [] => return .ok []
  | v :: vs => do
    match ← item (path ++ [.index place]) v with
    | .error p => return .error p
    | .ok w =>
      match ← completeItems item path (place + 1) vs with
      | .error p => return .error p
      | .ok ws => return .ok (w :: ws)

/-- The value of a named type. Only timestamps are checked among the scalars. -/
def completeNamed (s : Schema) (object : ObjectType → Path → Value → Run σ Value) (name : String)
    (path : Path) (v : Value) : Run σ Completed :=
  match s.type? name with
  | some (.scalar n _) =>
    if n = dateTimeScalar ∧ ¬ scalarAccepts n v then return .error path else return .ok v
  | some (.enum n d is) =>
    if v.isNull || !(TypeDef.enum n d is).acceptsLeaf v then return .error path else return .ok v
  | some (.object o) => do return .ok (← object o path v)
  | _ => return .error path

/-- The value of a type. A list needs a list. -/
def complete (s : Schema) (object : ObjectType → Path → Value → Run σ Value) :
    TypeRef → Path → Value → Run σ Completed
  | .nonNull t, path, v => complete s object t path v
  | .named n, path, v => completeNamed s object n path v
  | .list t, path, v =>
    match v with
    | .list vs => do
      match ← completeItems (complete s object t) path 0 vs with
      | .error p => return .error p
      | .ok ws => return .ok (.list ws)
    | _ => return .error path

/-! ### Fields -/

/-- A fragment on a type applies to an object. -/
def applies (on : Option String) (o : ObjectType) : Bool :=
  match on with
  | none => true
  | some name => name = o.name

/-- What a run reads: the host, the sender of the request, and the values of variables. -/
structure Env (σ : Type) where
  host : Host σ
  context : Option RequestContext
  lookup : String → Option Value

variable (env : Env σ)

/-- The answer of a field under its name, given how its object is answered. -/
def field (object : ObjectType → Path → Value → Run σ Value) (f : FieldDef) (key : String)
    (args : List (String × Literal)) (path : Path) (parent : Value) :
    Run σ (List (String × Value)) := do
  match f.argumentsOf env.lookup args with
  | .error fault => do
    note (.argument (if f.source.isInside then path ++ [.key key] else []) fault)
    return []
  | .ok args =>
    match ← onState (env.host.resolve env.context f parent args) with
    | .error e => do
      note (.resolver e)
      return []
    | .ok none => return [(key, .null)]
    | .ok (some v) =>
      let path := if f.source.entersDescription then path else path ++ [.key key]
      match ← complete (env.host.typesOf f) object f.type path v with
      | .error p => do
        note (.misfit p)
        return []
      | .ok w => return [(key, w)]

mutual

/-- The answers of selections on an object, in order. -/
def selectAll (o : ObjectType) (path : Path) (parent : Value) :
    List Selection → Run σ (List (String × Value))
  | [] => return []
  | s :: ss => do
    let first ← select o path parent s
    let rest ← selectAll o path parent ss
    return first ++ rest

/-- The answers of one selection. -/
def select (o : ObjectType) (path : Path) (parent : Value) :
    Selection → Run σ (List (String × Value))
  | .spread .. => return []
  | .inline on _ ss => if applies on o then selectAll o path parent ss else return []
  | .field aliasName name args _ ss =>
    let key := aliasName.getD name
    if name = Selection.typenameField then return [(key, .str o.name)]
    else
      match o.field? name with
      | none => return [(key, .null)]
      | some f =>
        field env (fun o path v => Value.ofAnswers <$> selectAll o path v ss) f key args path
          parent

end

end Run

end EntityGraph
