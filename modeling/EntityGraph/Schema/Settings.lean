import EntityGraph.Toml.Reader

/-!
Settings of an interface: how deep and how complex a request may be, whether the schema itself may
be asked for, and the largest list that is answered. Settings are read from the table of a
document, in which every key may be left out and no other key may occur.
-/

namespace EntityGraph

/-- The settings of an interface. -/
structure Settings where
  maxDepth : Nat
  maxComplexity : Nat
  introspection : Bool
  maxListLimit : Option Nat
deriving DecidableEq, Repr

/-- A setting that allows nothing. -/
inductive SettingsError where
  | zeroLimit (key : String)
deriving DecidableEq, Repr

/-- The text of an error. -/
def SettingsError.message : SettingsError → String
  | .zeroLimit key => "graphql." ++ key ++ " must be greater than zero"

namespace Settings

/-- The settings where nothing is set. -/
def standard : Settings := ⟨15, 500, true, none⟩

/-- The keys of the settings, in the order of their declaration. -/
def keys : List String := ["max_depth", "max_complexity", "introspection", "max_list_limit"]

/-- The first limit that is zero. -/
def validate (s : Settings) : Except SettingsError Unit :=
  if s.maxDepth = 0 then .error (.zeroLimit "max_depth")
  else if s.maxComplexity = 0 then .error (.zeroLimit "max_complexity")
  else if s.maxListLimit = some 0 then .error (.zeroLimit "max_list_limit")
  else .ok ()

/-- The settings as an object. A list limit that is not set is left out. -/
def toJson (s : Settings) : Json :=
  .obj ([("max_depth", .int s.maxDepth), ("max_complexity", .int s.maxComplexity),
    ("introspection", .bool s.introspection)] ++
    match s.maxListLimit with
    | some n => [("max_list_limit", .int n)]
    | none => [])

/-! ### Reading -/

/-- A value that may be left out. -/
def orElse {α : Type} (standard : α) (read : Json → Option α) : Option Json → Option α
  | none => some standard
  | some v => read v

/-- Reads the settings of a JSON value: an object, or the list of the values in the order of their
declaration. -/
def ofJson? (v : Json) : Option Settings := do
  let fs ← v.fieldsOf? keys
  let maxDepth ← orElse standard.maxDepth Json.asUnsigned? (Fields.get? fs "max_depth")
  let maxComplexity ← orElse standard.maxComplexity Json.asUnsigned? (Fields.get? fs "max_complexity")
  let introspection ← orElse standard.introspection Json.asBool? (Fields.get? fs "introspection")
  let maxListLimit ← Json.optionalCount? (Fields.get? fs "max_list_limit")
  if fs.all fun f => keys.contains f.1 then
    return { maxDepth, maxComplexity, introspection, maxListLimit }
  else none

/-- TOML has no null: a number that is not finite is none of the values. -/
def plain? : Toml → Option Json
  | .nonFinite => none
  | v => v.toJson?

/-- Reads the settings of a TOML document. -/
def ofToml? (text : String) : Option Settings := do
  let fs ← Toml.read? text
  let gs ← fs.mapM fun f => (plain? f.2).map fun v => (f.1, v)
  ofJson? (.obj gs)

end Settings

end EntityGraph
