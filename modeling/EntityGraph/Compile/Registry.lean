import EntityGraph.Graph.Definition
import EntityGraph.Graph.Error

/-!
The registry of generated types. A name is reserved once, together with the fingerprint of what
is built under it. Whoever asks for the name again with the same fingerprint is referred to the
type that is there or still under construction; another fingerprint is a conflict.
-/

namespace EntityGraph

/-- What a reservation of a name answers. -/
inductive Reservation where
  | build
  | existing
deriving DecidableEq, Repr

/-- The types generated so far, in the order they were finished, and the names in use. -/
structure TypeRegistry where
  fingerprints : List (String × String)
  generating : List String
  objects : List (String × ObjectType)
  inputs : List (String × InputType)
deriving Repr

namespace TypeRegistry

/-- The registry without names. -/
def empty : TypeRegistry := ⟨[], [], [], []⟩

/-- A name has been reserved. -/
def contains (r : TypeRegistry) (name : String) : Bool := Fields.contains r.fingerprints name

/-- A name has been reserved and its type is not finished. -/
def isGenerating (r : TypeRegistry) (name : String) : Bool := r.generating.contains name

/-- The number of finished object types. -/
def objectCount (r : TypeRegistry) : Nat := r.objects.length

/-- The number of finished input types. -/
def inputCount (r : TypeRegistry) : Nat := r.inputs.length

/-- The registry with a new name whose type is under construction. -/
def enter (r : TypeRegistry) (name fingerprint : String) : TypeRegistry :=
  { r with
    fingerprints := Fields.insert r.fingerprints name fingerprint
    generating := name :: r.generating }

/-- Reserves a name. -/
def reserve (r : TypeRegistry) (name fingerprint : String) :
    Except SchemaError Reservation × TypeRegistry :=
  match Fields.get? r.fingerprints name with
  | some f => (if f = fingerprint then .ok .existing else .error (.conflict name), r)
  | none => (.ok .build, r.enter name fingerprint)

/-- The names under construction other than one. -/
def others (r : TypeRegistry) (name : String) : List String := r.generating.filter fun n => n ≠ name

/-- Stores a finished object type. -/
def finishObject (r : TypeRegistry) (name : String) (o : ObjectType) : TypeRegistry :=
  { r with generating := r.others name, objects := Fields.insert r.objects name o }

/-- Stores a finished input type. -/
def finishInput (r : TypeRegistry) (name : String) (i : InputType) : TypeRegistry :=
  { r with generating := r.others name, inputs := Fields.insert r.inputs name i }

/-- The finished types: objects first, then inputs. -/
def types (r : TypeRegistry) : List TypeDef :=
  r.objects.map (fun o => .object o.2) ++ r.inputs.map fun i => .input i.2

end TypeRegistry

end EntityGraph
