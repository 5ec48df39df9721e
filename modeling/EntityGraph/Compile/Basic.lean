import EntityGraph.Catalog.Basic
import EntityGraph.Compile.Registry
import EntityGraph.Compile.Signature

/-!
Compilations: steps that read and extend the registry of generated types. A step that fails keeps
what it has registered so far, so a name it reserved stays reserved.
-/

namespace EntityGraph

/-- Why a compilation stops: a schema error, a name that occurs twice in one type, or a chain of
references that is longer than the catalog. -/
inductive CompileFailure where
  | refused (e : SchemaError)
  | repeatedField (typeName field : String)
  | chainTooLong
deriving DecidableEq, Repr

/-- A step of a compilation. -/
def Compile (α : Type) : Type := TypeRegistry → Except CompileFailure α × TypeRegistry

namespace Compile

variable {α β : Type}

/-- Answers without a step. -/
protected def pure (a : α) : Compile α := fun r => (.ok a, r)

/-- Goes on with the answer of a step. -/
protected def bind (c : Compile α) (f : α → Compile β) : Compile β := fun r =>
  match c r with
  | (.ok a, r) => f a r
  | (.error e, r) => (.error e, r)

instance : Monad Compile where
  pure := Compile.pure
  bind := Compile.bind

/-- Stops. -/
def stop (e : CompileFailure) : Compile α := fun r => (.error e, r)

/-- Stops with a schema error. -/
def refuse (e : SchemaError) : Compile α := stop (.refused e)

/-- Reserves a name for a signature. -/
def reserve (name : String) (s : Signature) : Compile Reservation := fun r =>
  match r.reserve name s.fingerprint with
  | (.ok a, r) => (.ok a, r)
  | (.error e, r) => (.error (.refused e), r)

/-- Changes the registry. -/
def change (f : TypeRegistry → TypeRegistry) : Compile Unit := fun r => (.ok (), f r)

/-- Builds a type unless it is there already. -/
def unlessReserved (name : String) (s : Signature) (build : Compile Unit) : Compile Unit := do
  match ← reserve name s with
  | .existing => return
  | .build => build

/-- Refuses a name that is not valid. -/
def checkName (name : String) : Compile Unit :=
  if Name.Valid name then return else refuse (.invalidName name)

/-- Adds a field at the end. A name may occur once. -/
def addField (typeName : String) (name : α → String) (fields : List α) (f : α) :
    Compile (List α) :=
  if fields.any fun g => name g = name f then stop (.repeatedField typeName (name f))
  else return fields ++ [f]

/-- Adds fields one after the other. -/
def addFields (typeName : String) (name : α → String) (before : List α) :
    List α → Compile (List α)
  | [] => return before
  | f :: fs => do
    let before ← addField typeName name before f
    addFields typeName name before fs

/-! ### Equations -/

@[simp] theorem pure_apply (a : α) (r : TypeRegistry) : (pure a : Compile α) r = (.ok a, r) := rfl

theorem bind_apply (c : Compile α) (f : α → Compile β) (r : TypeRegistry) :
    (c >>= f) r =
      match c r with
      | (.ok a, r) => f a r
      | (.error e, r) => (.error e, r) := rfl

theorem bind_ok {c : Compile α} {f : α → Compile β} {r s : TypeRegistry} {a : α}
    (h : c r = (.ok a, s)) : (c >>= f) r = f a s := by
  rw [bind_apply, h]

theorem bind_error {c : Compile α} {f : α → Compile β} {r s : TypeRegistry} {e : CompileFailure}
    (h : c r = (.error e, s)) : (c >>= f) r = (.error e, s) := by
  rw [bind_apply, h]

@[simp] theorem stop_apply (e : CompileFailure) (r : TypeRegistry) :
    (stop e : Compile α) r = (.error e, r) := rfl

@[simp] theorem refuse_apply (e : SchemaError) (r : TypeRegistry) :
    (refuse e : Compile α) r = (.error (.refused e), r) := rfl

@[simp] theorem change_apply (f : TypeRegistry → TypeRegistry) (r : TypeRegistry) :
    change f r = (.ok (), f r) := rfl

end Compile

end EntityGraph
