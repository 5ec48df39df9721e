import EntityGraph.Catalog.Basic
import EntityGraph.Repository.Database
import EntityGraph.Repository.Registry

/-!
A database in memory as those who share it see it. Its collections stand at places, and a
directory tells the place of every name that has been asked for. Who asks for a name gets a
handle: a repository on the collection at its place. The first to ask makes the collection.
-/

namespace EntityGraph

/-- Collections at their places, the places of the names, and the supply of identifiers, of which
some have been used. -/
structure SharedDatabase where
  places : List Collection
  directory : Fields Nat
  supply : Nat → String
  used : Nat

namespace SharedDatabase

/-- The database that nobody has asked for a collection. -/
def start (supply : Nat → String) : SharedDatabase := ⟨[], [], supply, 0⟩

/-- The identifier for the next record that brings none. -/
def fresh (d : SharedDatabase) : String := d.supply d.used

/-- The collection at a place. -/
def place (d : SharedDatabase) (p : Nat) : Collection := d.places.getD p (.empty "")

/-! ### Handles -/

/-- What a handle of a name on a place works on: a store of this one collection. -/
def storeAt (name : String) (p : Nat) (d : SharedDatabase) : Store :=
  ⟨⟨[(name, d.place p)]⟩, d.supply, d.used⟩

/-- Puts back what a handle worked on. -/
def putStore (name : String) (p : Nat) (s : Store) (d : SharedDatabase) : SharedDatabase :=
  { d with places := d.places.set p (s.database.collection name), used := s.used }

/-- The handle of a name on a place. -/
def handle (name : String) (p : Nat) : Repository SharedDatabase :=
  (Store.repository name).within (storeAt name p) (putStore name p)

/-- Makes the collection of a name, without records and at a new place. -/
def make (name : String) (d : SharedDatabase) : SharedDatabase :=
  { d with
    places := d.places ++ [.empty name]
    directory := d.directory.insert name d.places.length }

/-- The handle of a name. Its collection is made when it is first asked for. -/
def collection (name : String) (d : SharedDatabase) : Repository SharedDatabase × SharedDatabase :=
  match d.directory.get? name with
  | some p => (handle name p, d)
  | none => (handle name d.places.length, d.make name)

/-! ### Registries -/

/-- Binds an alias to the handle of its collection. -/
def bind (b : RepositoryRegistry SharedDatabase × SharedDatabase) (aliasName : String) :
    RepositoryRegistry SharedDatabase × SharedDatabase :=
  let (r, d) := b.2.collection aliasName
  (b.1.register aliasName r, d)

/-- The registry that binds every alias to the handle of its collection. -/
def registryFor (aliases : List String) (d : SharedDatabase) :
    RepositoryRegistry SharedDatabase × SharedDatabase := aliases.foldl bind (.empty, d)

/-- The registry of the entities of a catalog. -/
def registryForCatalog (c : Catalog) (d : SharedDatabase) :
    RepositoryRegistry SharedDatabase × SharedDatabase := d.registryFor c.aliases

/-! ### By name -/

/-- The collections by name. -/
def toDatabase (d : SharedDatabase) : Database :=
  ⟨d.directory.map fun f => (f.1, d.place f.2)⟩

/-- The database as a store. -/
def toStore (d : SharedDatabase) : Store := ⟨d.toDatabase, d.supply, d.used⟩

end SharedDatabase

end EntityGraph
