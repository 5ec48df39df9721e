import EntityGraph.Argument.Find
import EntityGraph.Graph.Definition
import EntityGraph.Repository.Registry

/-!
Resolvers of queries. A resolver reads its arguments, calls a repository, and answers a value, no
value, or an error. An argument that is refused keeps the repository from being called.
-/

namespace EntityGraph

/-- A resolver on a state. An answer without a value is null. -/
abbrev Resolve (σ : Type) := σ → Except ApiError (Option Value) × σ

namespace Resolver

variable {σ α : Type}

/-- Answers a value without a call. -/
def answer (v : Option Value) : Resolve σ := fun s => (.ok v, s)

/-- Refuses an argument without a call. -/
def refuse (e : ArgumentError) : Resolve σ := fun s => (.error (.argument e), s)

/-- Answers what a call answers. -/
def call (f : α → Option Value) (c : Call σ α) : Resolve σ := fun s =>
  match c s with
  | (.ok a, s) => (.ok (f a), s)
  | (.error e, s) => (.error (.repository e), s)

/-- The value of a record that may be missing. -/
def ofRecord (r : Option Json) : Option Value := r.map Value.ofJson

/-- The identifier of the arguments. -/
def idOf? (args : Argument.Arguments) : Option String :=
  match Fields.get? args "id" with
  | some (.str id) => some id
  | _ => none

/-! ### Queries -/

/-- The number of records that pass the filter of the arguments. -/
def count (ks : FieldKinds) (r : Repository σ) (args : Argument.Arguments) : Resolve σ :=
  match Argument.filterOf ks args with
  | .error e => refuse e
  | .ok f => call (fun (n : Nat) => some (.int n)) (r.count f)

/-- The record of the identifier of the arguments. Without one there is nothing to read. -/
def findById (r : Repository σ) (args : Argument.Arguments) : Resolve σ :=
  match idOf? args with
  | none => answer none
  | some id => call ofRecord (r.findById id)

/-- The page of records of the arguments. -/
def list (ks : FieldKinds) (largest : Option Nat) (r : Repository σ) (args : Argument.Arguments) :
    Resolve σ :=
  match Argument.findQuery ks largest args with
  | .error e => refuse e
  | .ok q => call (fun records => some (.list (records.map Value.ofJson))) (r.find q)

/-- The single record of a collection. -/
def singleton (r : Repository σ) : Resolve σ := call ofRecord (r.findOne .all)

/-- The resolver of a query. -/
def query (ks : FieldKinds) (largest : Option Nat) (r : Repository σ) (kind : QueryKind)
    (args : Argument.Arguments) : Resolve σ :=
  match kind with
  | .count => count ks r args
  | .findById => findById r args
  | .list => list ks largest r args
  | .singleton => singleton r

/-! ### Computed fields -/

/-- The field of a value that is an object. -/
def fieldOf? (parent : Value) (key : String) : Option Value :=
  match parent with
  | .object fs => Fields.get? fs key
  | _ => none

/-- The record that a field of the parent names by its identifier, or null. -/
def related (g : RepositoryRegistry σ) (aliasName key : String) (parent : Value) : Resolve σ :=
  match g.get? aliasName, fieldOf? parent key with
  | some r, some (.str id) => call (fun found => some ((ofRecord found).getD .null)) (r.findById id)
  | _, _ => answer (some .null)

/-- The value of a computation on a parent. It always has one, which may be null. -/
def compute (g : RepositoryRegistry σ) (c : Computation) (parent : Value) : Resolve σ :=
  match c with
  | .const v => answer (some (.ofJson v))
  | .key name => answer (some ((fieldOf? parent name).getD .null))
  | .parent => answer (some parent)
  | .find aliasName key => related g aliasName key parent
  | .fail m => refuse (.custom m)

end Resolver

end EntityGraph
