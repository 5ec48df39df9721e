import EntityGraph.Request.Policy
import EntityGraph.Resolver.Query

/-!
Resolvers of mutations. The policy is asked first, once, and told which record the write is about
to address. A mutation that it denies answers null, whatever its arguments are, and never reaches
the repository.
-/

namespace EntityGraph.Resolver

variable {σ : Type}

/-! ### Arguments -/

/-- The identifier of a record as text: a number stands for its digits. -/
def textId : Json → Json
  | .int n => .str (Json.compact (.int n))
  | .float x => .str (Json.compact (.float x))
  | v => v

/-- A record with the identifier it may hold as text. -/
def withTextId : Json → Json
  | .obj fs =>
    match Fields.get? fs idField with
    | some id => .obj (Fields.insert fs idField (textId id))
    | none => .obj fs
  | v => v

/-- The record of the arguments, as JSON. -/
def recordOf (args : Argument.Arguments) : Except ArgumentError Json :=
  match Fields.get? args "record" with
  | none | some .null => .error (.missing "record")
  | some v => .ok (withTextId v.toJson)

/-- The identifier that a record holds as text. -/
def recordId? (record : Json) : Option String := (record.get? idField).bind Json.asString?

/-- The identifier of the record of the arguments. -/
def addressed? (args : Argument.Arguments) : Option String :=
  match recordOf args with
  | .ok record => recordId? record
  | .error _ => none

/-! ### The policy -/

/-- The record that a mutation addresses. A new record has no address. -/
def target? (kind : MutationKind) (args : Argument.Arguments) : Option String :=
  match kind with
  | .create => none
  | .update => addressed? args
  | .remove => idOf? args

/-- Goes on when the policy allows a mutation, and answers null otherwise. -/
def guarded (check : PolicyCheck σ) (q : MutationRequest) (write : Resolve σ) : Resolve σ := fun s =>
  match check q s with
  | (.allow, s) => write s
  | (.deny _, s) => (.ok none, s)

/-! ### Writes -/

/-- Creates the record of the arguments. -/
def create (r : Repository σ) (args : Argument.Arguments) : Resolve σ :=
  match recordOf args with
  | .error e => refuse e
  | .ok record => call (fun created => some (.ofJson created)) (r.create record)

/-- Updates the record that the record of the arguments names. Without a name there is nothing to
update. -/
def update (r : Repository σ) (args : Argument.Arguments) : Resolve σ :=
  match recordOf args with
  | .error e => refuse e
  | .ok record =>
    match recordId? record with
    | none => answer none
    | some id => call ofRecord (r.update id record)

/-- Removes the record of the identifier of the arguments, and answers true whether or not there
was one. -/
def remove (r : Repository σ) (args : Argument.Arguments) : Resolve σ :=
  match idOf? args with
  | none => refuse (.missing "id")
  | some id => call (fun _ => some (.bool true)) (r.deleteById id)

/-- The write of a mutation that is allowed. -/
def write (kind : MutationKind) (r : Repository σ) (args : Argument.Arguments) : Resolve σ :=
  match kind with
  | .create => create r args
  | .update => update r args
  | .remove => remove r args

/-- The resolver of a mutation. -/
def mutation (check : PolicyCheck σ) (context : Option RequestContext) (aliasName : String)
    (r : Repository σ) (kind : MutationKind) (args : Argument.Arguments) : Resolve σ :=
  guarded check ⟨kind, aliasName, target? kind args, context⟩ (write kind r args)

end EntityGraph.Resolver
