import EntityGraph.Reachable
import EntityGraph.Validation.Site

/-!
The rules that a document has to obey before any of it runs.
-/

namespace EntityGraph

namespace FieldSite

/-- The field exists in the type around it. -/
def exists? (f : FieldSite) : Bool :=
  match f.parent with
  | some d => (d.field? f.name).isSome
  | none => true

/-- Something is selected of the field exactly when it is an object. -/
def leafFits (s : Schema) (f : FieldSite) : Bool :=
  match s.fieldType? f.parent f.name with
  | some d => d.isObject != f.isLeaf
  | none => true

end FieldSite

namespace FragmentSite

/-- The type of the fragment exists, has fields, and is the type around it. -/
def fits (s : Schema) (f : FragmentSite) : Bool :=
  match f.on with
  | none => true
  | some name =>
    match s.type? name with
    | none => false
    | some d =>
      d.isObject &&
        match f.around with
        | some e => e.name = d.name
        | none => true

end FragmentSite

/-! ### Arguments -/

namespace ArgumentSite

/-- Every argument is declared. -/
def known (a : ArgumentSite) : Bool :=
  match a.declared with
  | some ds => a.given.all fun g => ds.any fun f => f.name = g.1
  | none => true

/-- No argument is given twice. -/
def distinct (a : ArgumentSite) : Bool := decide (a.given.map Prod.fst).Nodup

/-- Every argument that is required is given. -/
def provided (a : ArgumentSite) : Bool :=
  match a.declared with
  | some ds => ds.all fun f => !f.isRequired || a.given.any fun g => g.1 = f.name
  | none => true

/-- Every argument fits its type. An argument with a variable that has no value to look at is left
alone. -/
def valid (s : Schema) (lookup : String → Option Value) (a : ArgumentSite) : Bool :=
  a.typed.all fun t =>
    match t.2.value? lookup with
    | some v => s.accepts v t.1
    | none => true

/-- The arguments obey the rules. -/
def obeys (s : Schema) (lookup : String → Option Value) (a : ArgumentSite) : Bool :=
  a.known && a.distinct && a.provided && a.valid s lookup

end ArgumentSite

/-! ### Directives -/

/-- The directive is known and may stand on a selection. -/
def Directive.fits (d : Directive) : Bool :=
  match DirectiveDef.get? d.name with
  | some k => k.onSelections
  | none => false

/-- Every directive may stand where it does, and none is given twice. -/
def directivesFit (ds : List Directive) : Bool :=
  ds.all Directive.fits && decide (ds.map Directive.name).Nodup

/-! ### Overlapping fields -/

/-- A field under the name it answers to, and the type its innermost fragment is on. -/
structure Output where
  on : Option String
  key : String
  name : String
  arguments : List (String × Literal)
deriving Repr

namespace Output

/-- Two fields that answer to the same name are the same. -/
def agrees (a b : Output) : Bool :=
  a.name = b.name && a.arguments.length == b.arguments.length &&
    a.arguments.all fun g =>
      match Fields.get? b.arguments g.1 with
      | some l => g.2.same l
      | none => false

/-- Two fields do not get in each other's way. -/
def compatible (a b : Output) : Bool := a.on ≠ b.on || a.key ≠ b.key || a.agrees b

end Output

namespace Selection

mutual

/-- The fields of selections that stand together, fragments included. -/
def outputsAll (on : Option String) : List Selection → List Output
  | [] => []
  | s :: ss => outputs on s ++ outputsAll on ss

def outputs (on : Option String) : Selection → List Output
  | .field aliasName name args _ _ => [⟨on, aliasName.getD name, name, args⟩]
  | .inline on _ ss => outputsAll on ss
  | .spread .. => []

end

end Selection

/-- Every two fields of a list are compatible. -/
def outputsFit : List Output → Bool
  | [] => true
  | a :: as => as.all a.compatible && outputsFit as

/-! ### Sites -/

/-- A site obeys the rules. -/
def Site.obeys (s : Schema) (lookup : String → Option Value) (x : Site) : Bool :=
  x.argumentSites.all (fun a => a.obeys s lookup) && directivesFit x.directives &&
    match x with
    | .field f => f.exists? && f.leafFits s
    | .fragment f => f.fits s
    | .group ss => outputsFit (Selection.outputsAll none ss)

/-! ### Variables -/

namespace VariableDef

/-- The default value of the variable comes upon a type that does not exist. -/
def strays (s : Schema) (v : VariableDef) : Bool :=
  match s.type? v.type.base, v.default with
  | none, some x => v.type.obstacle? x == some .unknownType
  | _, _ => false

/-- The variable has an input type, and a default value that fits it. -/
def fits (s : Schema) (v : VariableDef) : Bool :=
  (match s.type? v.type.base with
    | some d => d.isInput
    | none => false) &&
  (match v.default with
    | some x => s.accepts x v.type
    | none => true) &&
  decide ((v.directives.map Directive.name).filter fun n => (DirectiveDef.get? n).isSome).Nodup

end VariableDef

/-- Variables are declared once, and used. What a variable stands for is judged by its value, not
by its declared type. -/
def variablesFit (s : Schema) (vs : List VariableDef) (xs : List Site) : Bool :=
  let used := xs.flatMap Site.variableNames
  let names := vs.map VariableDef.name
  vs.all (fun v => v.fits s) && decide names.Nodup && used.all names.contains &&
    names.all used.contains

/-! ### Fragments -/

namespace Selection

mutual

/-- The fragments that selections name. What stands below the field of a type name is not looked
at. -/
def spreadsAll : List Selection → List String
  | [] => []
  | s :: ss => spreads s ++ spreadsAll ss

def spreads : Selection → List String
  | .field _ name _ _ ss => if name = typenameField then [] else spreadsAll ss
  | .spread name _ => [name]
  | .inline _ _ ss => spreadsAll ss

end

end Selection

namespace Document

variable (d : Document)

/-- The fragments that a fragment names. -/
def namedBy (name : String) : List String :=
  match d.fragment? name with
  | some f => Selection.spreadsAll f.selections
  | none => []

/-- The fragments that operations name. -/
def namedByOperations : List String :=
  d.operations.flatMap fun o => Selection.spreadsAll o.selections

/-- The names of the fragments. -/
def fragmentNames : List String := d.fragments.map FragmentDef.name

/-- The fragments that the operations use. -/
def usedFragments : List String := reachable d.namedBy d.fragmentNames d.namedByOperations

/-- Every fragment that is named exists, and every fragment is used. -/
def fragmentsFit : Bool :=
  (d.namedByOperations ++ d.fragmentNames.flatMap d.namedBy).all d.fragmentNames.contains &&
    d.fragments.all fun f => f.directives.isEmpty && d.usedFragments.contains f.name

/-- The arguments inside fragments fit their types, whichever operation uses them. -/
def fragmentsObey (s : Schema) (lookup : String → Option Value) : Bool :=
  d.fragments.all fun f =>
    (s.sitesAll (s.type? f.on) f.selections).all fun x =>
      x.argumentSites.all fun a => a.valid s lookup

end Document

/-! ### Operations -/

/-- An operation whose fragments are in place obeys the rules. There are no subscriptions, and no
directives on operations. -/
def Operation.obeys (s : Schema) (lookup : String → Option Value) (o : Operation) : Bool :=
  let xs := s.operationSites o.kind o.selections
  o.kind ≠ .subscription && o.directives.isEmpty && xs.all (fun x => x.obeys s lookup) &&
    variablesFit s o.declared xs

end EntityGraph
