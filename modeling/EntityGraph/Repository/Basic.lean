import EntityGraph.Catalog.Error
import EntityGraph.Query.Form

/-!
Repositories: six calls on the records of one collection, each of which may fail and may change
the state it runs on. What holds of every repository is stated against this interface.
-/

namespace EntityGraph

/-- Why a repository refuses a call. -/
inductive RepositoryError where
  | alreadyExists (collection id : String)
  | invalidRecord (message : String)
  | connection (message : String)
  | internal (message : String)
deriving DecidableEq, Repr

namespace RepositoryError

/-- The text of an error. -/
def message : RepositoryError → String
  | .alreadyExists c id => "Record already exists: " ++ c ++ "/" ++ id
  | .invalidRecord m => "Invalid record: " ++ m
  | .connection m => "Connection error: " ++ m
  | .internal m => "Internal error: " ++ m

/-- The category of an error. -/
def category : RepositoryError → ErrorCategory
  | .alreadyExists .. => .conflict
  | .invalidRecord _ => .validation
  | .connection _ => .infrastructure
  | .internal _ => .internal

end RepositoryError

/-- A call on a state: its answer and the state it leaves behind. -/
abbrev Call (σ α : Type) := σ → Except RepositoryError α × σ

/-- The calls on the records of one collection. -/
structure Repository (σ : Type) where
  collection : String
  backend : String
  count : Filter → Call σ Nat
  findById : String → Call σ (Option Json)
  find : FindQuery → Call σ (List Json)
  create : Json → Call σ Json
  update : String → Json → Call σ (Option Json)
  deleteById : String → Call σ Bool

namespace Repository

variable {σ τ : Type}

/-- The first record that passes a filter. -/
def findOne (r : Repository σ) (f : Filter) : Call σ (Option Json) := fun s =>
  match r.find (.first f) s with
  | (.ok records, s) => (.ok records.head?, s)
  | (.error e, s) => (.error e, s)

/-- A repository whose calls all fail. -/
def failing (collection : String) (e : RepositoryError) : Repository σ where
  collection := collection
  backend := "failing"
  count _ s := (.error e, s)
  findById _ s := (.error e, s)
  find _ s := (.error e, s)
  create _ s := (.error e, s)
  update _ _ s := (.error e, s)
  deleteById _ s := (.error e, s)

/-! ### Logging -/

/-- A call as a log holds it. -/
inductive LoggedCall where
  | count (filter : Filter)
  | findById (id : String)
  | find (query : FindQuery)
  | create (record : Json)
  | update (id : String) (changes : Json)
  | deleteById (id : String)
deriving Repr

namespace LoggedCall

/-- The name of a call. -/
def name : LoggedCall → String
  | .count _ => "count"
  | .findById _ => "find_by_id"
  | .find _ => "find"
  | .create _ => "create"
  | .update .. => "update"
  | .deleteById _ => "delete_by_id"

/-- The argument of a call. -/
def argument : LoggedCall → Json
  | .count f => f.toJson
  | .findById id => .str id
  | .find q => q.toJson
  | .create record => record
  | .update id changes => .arr [.str id, changes]
  | .deleteById id => .str id

/-- The calls that may change records. -/
def isWrite : LoggedCall → Bool
  | .create _ | .update .. | .deleteById _ => true
  | _ => false

end LoggedCall

/-- A repository that notes every call in its state before it runs. -/
def logged (note : String → LoggedCall → σ → σ) (r : Repository σ) : Repository σ where
  collection := r.collection
  backend := r.backend
  count f s := r.count f (note r.collection (.count f) s)
  findById id s := r.findById id (note r.collection (.findById id) s)
  find q s := r.find q (note r.collection (.find q) s)
  create record s := r.create record (note r.collection (.create record) s)
  update id changes s := r.update id changes (note r.collection (.update id changes) s)
  deleteById id s := r.deleteById id (note r.collection (.deleteById id) s)

/-! ### A part of a larger state -/

/-- Runs a call on a part of a state. -/
def onPart {α : Type} (get : τ → σ) (set : σ → τ → τ) (c : Call σ α) : Call τ α := fun t =>
  let (answer, s) := c (get t)
  (answer, set s t)

/-- A repository on a part of a state. -/
def within (get : τ → σ) (set : σ → τ → τ) (r : Repository σ) : Repository τ where
  collection := r.collection
  backend := r.backend
  count f := onPart get set (r.count f)
  findById id := onPart get set (r.findById id)
  find q := onPart get set (r.find q)
  create record := onPart get set (r.create record)
  update id changes := onPart get set (r.update id changes)
  deleteById id := onPart get set (r.deleteById id)

end Repository

end EntityGraph
