import EntityGraph.Graph.Definition
import EntityGraph.Graph.Value

/-!
Documents: the operations and fragments that a request is made of. The directives `skip` and
`include` decide whether a selection stays; every other directive is unknown.
-/

namespace EntityGraph

/-- A value in which variables may stand. -/
inductive Literal where
  | null
  | bool (b : Bool)
  | int (n : Int)
  | float (x : Binary64)
  | str (s : String)
  | item (name : String)
  | variable (name : String)
  | list (elems : List Literal)
  | object (fields : List (String × Literal))
deriving Repr, Inhabited

namespace Literal

mutual

/-- The value of a literal, given the values of variables. A variable without one has none. -/
def value? (lookup : String → Option Value) : Literal → Option Value
  | .null => some .null
  | .bool b => some (.bool b)
  | .int n => some (.int n)
  | .float x => some (.float x)
  | .str s => some (.str s)
  | .item name => some (.item name)
  | .variable name => lookup name
  | .list ls => (elemValues? lookup ls).map .list
  | .object fs => (fieldValues? lookup fs).map .object

def elemValues? (lookup : String → Option Value) : List Literal → Option (List Value)
  | [] => some []
  | l :: ls =>
    match value? lookup l, elemValues? lookup ls with
    | some v, some vs => some (v :: vs)
    | _, _ => none

def fieldValues? (lookup : String → Option Value) :
    List (String × Literal) → Option (List (String × Value))
  | [] => some []
  | (k, l) :: fs =>
    match value? lookup l, fieldValues? lookup fs with
    | some v, some vs => some ((k, v) :: vs)
    | _, _ => none

end

/-- The value of a literal without variables. -/
def constant? (l : Literal) : Option Value := l.value? fun _ => none

mutual

/-- The variables of a literal. -/
def variableNames : Literal → List String
  | .variable name => [name]
  | .list ls => elemVariables ls
  | .object fs => fieldVariables fs
  | _ => []

def elemVariables : List Literal → List String
  | [] => []
  | l :: ls => variableNames l ++ elemVariables ls

def fieldVariables : List (String × Literal) → List String
  | [] => []
  | (_, l) :: fs => variableNames l ++ fieldVariables fs

end

/-- The first variable of a literal that has no value. -/
def unset? (lookup : String → Option Value) (l : Literal) : Option String :=
  l.variableNames.find? fun n => (lookup n).isNone

mutual

/-- Equality of literals: numbers of one class by value, objects in any order of fields. -/
def same : Literal → Literal → Bool
  | .null, .null => true
  | .bool a, .bool b => a == b
  | .int m, .int n => m == n
  | .float x, .float y => x.same y
  | .str s, .str t => s == t
  | .item m, .item n => m == n
  | .variable m, .variable n => m == n
  | .list ls, .list ms => sameElems ls ms
  | .object fs, .object gs => fs.length == gs.length && sameFields fs gs
  | _, _ => false

def sameElems : List Literal → List Literal → Bool
  | [], [] => true
  | l :: ls, m :: ms => same l m && sameElems ls ms
  | _, _ => false

def sameFields : List (String × Literal) → List (String × Literal) → Bool
  | [], _ => true
  | (k, l) :: fs, gs =>
    (match Fields.get? gs k with
      | some m => same l m
      | none => false) && sameFields fs gs

end

end Literal

/-- A directive and its arguments. -/
structure Directive where
  name : String
  arguments : List (String × Literal)
deriving Repr

/-- One selection: a field, a named fragment, or a fragment in place. -/
inductive Selection where
  | field (aliasName : Option String) (name : String) (arguments : List (String × Literal))
      (directives : List Directive) (selections : List Selection)
  | spread (fragment : String) (directives : List Directive)
  | inline (on : Option String) (directives : List Directive) (selections : List Selection)
deriving Repr

namespace Selection

mutual

/-- How many selections in braces stand around each other, from a list of selections inwards. -/
def nestingAll : List Selection → Nat
  | [] => 0
  | s :: ss => max (nesting s + 1) (nestingAll ss)

def nesting : Selection → Nat
  | .field _ _ _ _ ss => nestingAll ss
  | .spread .. => 0
  | .inline _ _ ss => nestingAll ss

end

end Selection

/-- The kinds of operations. -/
inductive OperationKind where
  | query
  | mutation
  | subscription
deriving DecidableEq, Repr

/-- The declaration of a variable. -/
structure VariableDef where
  name : String
  type : TypeRef
  default : Option Value
  directives : List Directive
deriving Repr

/-- An operation. -/
structure Operation where
  kind : OperationKind
  name : Option String
  declared : List VariableDef
  directives : List Directive
  selections : List Selection
deriving Repr

/-- A fragment. -/
structure FragmentDef where
  name : String
  on : String
  directives : List Directive
  selections : List Selection
deriving Repr

/-- A definition of a document. -/
inductive Definition where
  | operation (o : Operation)
  | fragment (f : FragmentDef)
deriving Repr

/-- The selections of a definition. -/
def Definition.selections : Definition → List Selection
  | .operation o => o.selections
  | .fragment f => f.selections

/-- The operations and the fragments of a document. -/
structure Document where
  operations : List Operation
  fragments : List FragmentDef
deriving Repr

namespace Document

/-- The fragment of a name. -/
def fragment? (d : Document) (name : String) : Option FragmentDef :=
  d.fragments.find? fun f => f.name = name

/-- The operation of a definition. -/
def operationOf? : Definition → Option Operation
  | .operation o => some o
  | .fragment _ => none

/-- The fragment of a definition. -/
def fragmentOf? : Definition → Option FragmentDef
  | .operation _ => none
  | .fragment f => some f

/-- An operation that stands alone may lack a name; several have distinct names. -/
def namesFit (os : List Operation) : Bool :=
  match os with
  | [] => false
  | [_] => true
  | os => os.all (fun o => o.name.isSome) && decide (os.map Operation.name).Nodup

/-- The document of definitions, in order. -/
def ofDefinitions? (ds : List Definition) : Option Document :=
  let os := ds.filterMap operationOf?
  let fs := ds.filterMap fragmentOf?
  if namesFit os && decide (fs.map FragmentDef.name).Nodup then some ⟨os, fs⟩ else none

/-- The operation that a request asks for. A single operation is taken when no name is given; a
name is of use only where operations have names. -/
def select? (d : Document) (name : Option String) : Option Operation :=
  match name, d.operations with
  | none, [o] => some o
  | none, _ => none
  | some n, os => os.find? fun o => o.name = some n

end Document

end EntityGraph
