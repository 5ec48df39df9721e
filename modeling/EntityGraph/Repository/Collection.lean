import EntityGraph.Entity
import EntityGraph.Record.Match
import EntityGraph.Record.Sort
import EntityGraph.Repository.Basic

/-!
A collection in memory. Its entries stand in no particular order; the sequence number each got
when it was created gives the natural order of the records. A stored record is an object that
starts with its identifier, which is also the key of its entry.
-/

namespace EntityGraph

/-- One entry of a collection. -/
structure Entry where
  id : String
  seq : Nat
  record : Json
deriving Repr

/-- The records of one collection. -/
structure Collection where
  name : String
  entries : List Entry
  nextSeq : Nat
deriving Repr

namespace Collection

/-- A collection without records. -/
def empty (name : String) : Collection := ⟨name, [], 0⟩

/-- The number of records. -/
def size (c : Collection) : Nat := c.entries.length

/-- The entry of an identifier. -/
def entry? (c : Collection) (id : String) : Option Entry := c.entries.find? fun e => e.id = id

/-- The order in which entries were created. -/
def older (a b : Entry) : Bool := a.seq ≤ b.seq

/-- The records that pass a filter, in natural order. -/
def matching (c : Collection) (f : Filter) : List Json :=
  ((c.entries.filter fun e => f.passes e.record).mergeSort older).map Entry.record

/-- All records in natural order. -/
def toList (c : Collection) : List Json := (c.entries.mergeSort older).map Entry.record

/-! ### Reading -/

/-- The number of records that pass a filter. -/
def count (c : Collection) (f : Filter) : Nat :=
  if f.isAll then c.size else (c.matching f).length

/-- The record of an identifier. -/
def findById (c : Collection) (id : String) : Option Json := (c.entry? id).map Entry.record

/-- The page of a query: the matching records, sorted and cut. -/
def find (c : Collection) (q : FindQuery) : List Json :=
  page q.skip q.limit (sortRecords q.sort (c.matching q.filter))

/-! ### Writing -/

/-- The error for a record that is no object. -/
def notObject : RepositoryError := .invalidRecord "record must be a JSON object"

/-- The identifier of a new record: its own, unless it is missing, null or empty. -/
def newId (fresh : String) (fs : Fields Json) : Except RepositoryError String :=
  match fs.get? idField with
  | none | some .null => .ok fresh
  | some (.str id) => .ok (if id = "" then fresh else id)
  | some v => .error (.invalidRecord (idField ++ " must be a string, got " ++ v.compact))

/-- The record as it is stored: its identifier first, then its other fields in order. -/
def stored (id : String) (fs : Fields Json) : Json := .obj ((idField, .str id) :: fs.erase idField)

/-- Creates a record. A failed attempt may still use up a sequence number. -/
def create (fresh : String) (record : Json) (c : Collection) :
    Except RepositoryError Json × Collection :=
  match record.asObject? with
  | none => (.error notObject, c)
  | some fs =>
    match newId fresh fs with
    | .error e => (.error e, c)
    | .ok id =>
      let next := { c with nextSeq := c.nextSeq + 1 }
      if (c.entry? id).isSome then (.error (.alreadyExists c.name id), next)
      else (.ok (stored id fs), { next with entries := ⟨id, c.nextSeq, stored id fs⟩ :: c.entries })

/-- Writes the fields of a change over a record. Its identifier stays. -/
def merge (changes : Fields Json) : Json → Json
  | .obj fs => .obj (Fields.insertAll fs (changes.erase idField))
  | v => v

/-- Updates a record in place. -/
def update (id : String) (changes : Json) (c : Collection) :
    Except RepositoryError (Option Json) × Collection :=
  match changes.asObject? with
  | none => (.error notObject, c)
  | some fs =>
    match c.entry? id with
    | none => (.ok none, c)
    | some e =>
      let record := merge fs e.record
      (.ok (some record),
        { c with entries := c.entries.map fun e => if e.id = id then { e with record } else e })

/-- Deletes a record, and tells whether there was one. -/
def deleteById (id : String) (c : Collection) : Bool × Collection :=
  ((c.entry? id).isSome, { c with entries := c.entries.filter fun e => e.id ≠ id })

end Collection

end EntityGraph
