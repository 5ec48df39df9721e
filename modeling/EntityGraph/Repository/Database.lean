import EntityGraph.Repository.Collection

/-!
A database in memory: collections by name, each made when it is first named. A store adds the
supply of identifiers for records that bring none.
-/

namespace EntityGraph

/-- Collections by name. -/
structure Database where
  collections : List (String × Collection)
deriving Repr

namespace Database

/-- The database without collections. -/
def empty : Database := ⟨[]⟩

/-- The collection of a name. -/
def collection (d : Database) (name : String) : Collection :=
  (Fields.get? d.collections name).getD (.empty name)

/-- Replaces the collection of a name. -/
def setCollection (d : Database) (name : String) (c : Collection) : Database :=
  ⟨Fields.insert d.collections name c⟩

/-- Changes the collection of a name and answers. -/
def change {α : Type} (d : Database) (name : String) (f : Collection → α × Collection) :
    α × Database :=
  let (answer, c) := f (d.collection name)
  (answer, d.setCollection name c)

end Database

/-- A database and the identifiers it hands out, of which some have been used. -/
structure Store where
  database : Database
  supply : Nat → String
  used : Nat

namespace Store

/-- A store without records. -/
def start (supply : Nat → String) : Store := ⟨.empty, supply, 0⟩

/-- The identifier for the next record that brings none. -/
def fresh (s : Store) : String := s.supply s.used

/-- The record asks for an identifier. -/
def needsId (record : Json) : Bool :=
  match record.asObject? with
  | none => false
  | some fs =>
    match Fields.get? fs idField with
    | none | some .null => true
    | some (.str id) => id = ""
    | some _ => false

/-- Changes the collection of a name and answers. -/
def change {α : Type} (s : Store) (name : String) (f : Collection → α × Collection) : α × Store :=
  let (answer, d) := s.database.change name f
  (answer, { s with database := d })

/-- Creates a record in a collection. -/
def create (name : String) (record : Json) (s : Store) : Except RepositoryError Json × Store :=
  let (answer, t) := s.change name (Collection.create s.fresh record)
  (answer, { t with used := if needsId record then s.used + 1 else s.used })

/-- The repository of a collection. -/
def repository (name : String) : Repository Store where
  collection := name
  backend := "memory"
  count f s := (.ok ((s.database.collection name).count f), s)
  findById id s := (.ok ((s.database.collection name).findById id), s)
  find q s := (.ok ((s.database.collection name).find q), s)
  create := create name
  update id changes s := s.change name (Collection.update id changes)
  deleteById id s :=
    let (found, s) := s.change name (Collection.deleteById id)
    (.ok found, s)

end Store

end EntityGraph
