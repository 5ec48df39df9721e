import EntityGraph.Argument.Find
import EntityGraph.Document.Basic
import EntityGraph.Schema.Basic
import EntityGraph.Timestamp

/-!
Which values an argument may have. Null fits every type that allows it; a value that is not a list
stands for a list of one; an object fits an input type when its keys are known and its values fit;
and an input type accepts every value that is not an object, which is left to whoever reads the
argument.
-/

namespace EntityGraph

namespace TypeRef

/-- The type does not allow null. -/
def isNonNull : TypeRef → Bool
  | .nonNull _ => true
  | _ => false

/-- What a value comes upon first when its type has an unknown name: a null that is not allowed, or
the name. An empty list and a null that is allowed come upon neither. -/
inductive Obstacle where
  | null
  | unknownType
deriving DecidableEq, Repr

/-- The first obstacle of a value. -/
def obstacle? : TypeRef → Value → Option Obstacle
  | .named _, v => if v.isNull then none else some .unknownType
  | .nonNull t, v => if v.isNull then some .null else t.obstacle? v
  | .list t, v =>
    match v with
    | .null => none
    | .list vs => vs.findSome? t.obstacle?
    | v => t.obstacle? v

/-- The type of the items of a list. -/
def item? : TypeRef → Option TypeRef
  | .list t => some t
  | .nonNull t => t.item?
  | .named _ => none

end TypeRef

/-- A value of the built-in scalars and of timestamps. -/
def scalarAccepts (scalar : String) (v : Value) : Bool :=
  match scalar, v with
  | "String", .str _ => true
  | "Boolean", .bool _ => true
  | "Int", v => (Argument.signed? v).isSome
  | "Float", .int _ => true
  | "Float", .float _ => true
  | "ID", .str _ => true
  | "ID", v => (Argument.signed? v).isSome
  | "DateTime", .str s => Timestamp.isValid s
  | _, _ => false

namespace TypeDef

/-- A value that is neither null nor an object fits a type. -/
def acceptsLeaf (d : TypeDef) (v : Value) : Bool :=
  match d, v with
  | .scalar n _, v => scalarAccepts n v
  | .enum _ _ is, .item n => is.any fun i => i.1 = n
  | .enum _ _ is, .str n => is.any fun i => i.1 = n
  | .enum .., _ => false
  | .input _, _ => true
  | .object _, _ => true

end TypeDef

/-- A field or argument is required when it neither allows null nor has a default value. -/
def InputField.isRequired (f : InputField) : Bool := f.type.isNonNull && f.default.isNone

namespace InputType

/-- The field of a name. -/
def field? (i : InputType) (name : String) : Option InputField :=
  i.fields.find? fun f => f.name = name

/-- Every field that is required is given. -/
def complete (i : InputType) (keys : List String) : Bool :=
  i.fields.all fun f => !f.isRequired || keys.contains f.name

end InputType

namespace Schema

variable (s : Schema)

/-- The input type of a name. -/
def input? (name : String) : Option InputType :=
  match s.type? name with
  | some (.input i) => some i
  | _ => none

/-- A value that is neither null nor an object fits the type of a name. -/
def acceptsLeaf (name : String) (v : Value) : Bool :=
  match s.type? name with
  | some d => d.acceptsLeaf v
  | none => true

mutual

/-- A value fits a type. -/
def accepts : Value → TypeRef → Bool
  | .null, t => !t.isNonNull
  | .list vs, t =>
    match t.item? with
    | some u => acceptsAll vs u
    | none => s.acceptsLeaf t.base (.list [])
  | .object fs, t =>
    match s.input? t.base with
    | some i => i.complete (Fields.keys fs) && acceptsFields fs i
    | none => s.acceptsLeaf t.base (.object [])
  | .bool b, t => s.acceptsLeaf t.base (.bool b)
  | .int n, t => s.acceptsLeaf t.base (.int n)
  | .float x, t => s.acceptsLeaf t.base (.float x)
  | .str x, t => s.acceptsLeaf t.base (.str x)
  | .item n, t => s.acceptsLeaf t.base (.item n)
  | .bytes bs, t => s.acceptsLeaf t.base (.bytes bs)

def acceptsAll : List Value → TypeRef → Bool
  | [], _ => true
  | v :: vs, t => accepts v t && acceptsAll vs t

def acceptsFields : List (String × Value) → InputType → Bool
  | [], _ => true
  | (k, v) :: fs, i =>
    (match i.field? k with
      | some f => accepts v f.type
      | none => false) && acceptsFields fs i

end

end Schema

end EntityGraph
