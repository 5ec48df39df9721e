import EntityGraph.Proofs.Value.Convert
import Mathlib.Data.Int.Notation
import Mathlib.Data.Nat.Notation

/-!
What the round trip between values and JSON keeps. A JSON value comes back as it was. A value comes
back with the items of enums as strings and bytes as null, at any depth, and with nothing else
changed; so what comes back as it was are the values without either. Numbers are carried over by the
first class that holds them, and none of them changes its class.
-/

namespace EntityGraph

namespace Value

/-! ### What is lost -/

mutual

/-- **What becomes of a value on its way to JSON and back.** -/
inductive Reread : Value → Value → Prop
  | null : Reread .null .null
  | bool (b : Bool) : Reread (.bool b) (.bool b)
  | int (n : ℤ) : Reread (.int n) (.int n)
  | float (x : Binary64) : Reread (.float x) (.float x)
  | str (s : String) : Reread (.str s) (.str s)
  | item (name : String) : Reread (.item name) (.str name)
  | bytes (bs : List ℕ) : Reread (.bytes bs) .null
  | list {vs ws : List Value} (h : RereadElems vs ws) : Reread (.list vs) (.list ws)
  | object {fs gs : List (String × Value)} (h : RereadFields fs gs) :
      Reread (.object fs) (.object gs)

inductive RereadElems : List Value → List Value → Prop
  | nil : RereadElems [] []
  | cons {v w : Value} {vs ws : List Value} (h : Reread v w) (hrest : RereadElems vs ws) :
      RereadElems (v :: vs) (w :: ws)

/-- The keys stay as they are, in order. -/
inductive RereadFields : List (String × Value) → List (String × Value) → Prop
  | nil : RereadFields [] []
  | cons {k : String} {v w : Value} {fs gs : List (String × Value)} (h : Reread v w)
      (hrest : RereadFields fs gs) : RereadFields ((k, v) :: fs) ((k, w) :: gs)

end

mutual

/-- No item of an enum and no bytes are inside the value. -/
def Plain : Value → Prop
  | .item _ | .bytes _ => False
  | .list vs => PlainElems vs
  | .object fs => PlainFields fs
  | .null | .bool _ | .int _ | .float _ | .str _ => True

def PlainElems : List Value → Prop
  | [] => True
  | v :: vs => Plain v ∧ PlainElems vs

def PlainFields : List (String × Value) → Prop
  | [] => True
  | (_, v) :: fs => Plain v ∧ PlainFields fs

end

/-! ### There and back -/

mutual

theorem reread_ofJson_toJson : ∀ v : Value, Reread v (ofJson v.toJson)
  | .null => .null
  | .bool b => .bool b
  | .int n => .int n
  | .float x => .float x
  | .str s => .str s
  | .item name => .item name
  | .bytes bs => .bytes bs
  | .list vs => .list (rereadElems_elemsOfJson vs)
  | .object fs => .object (rereadFields_fieldsOfJson fs)

theorem rereadElems_elemsOfJson : ∀ vs : List Value, RereadElems vs (elemsOfJson (elemsToJson vs))
  | [] => .nil
  | v :: vs => .cons (reread_ofJson_toJson v) (rereadElems_elemsOfJson vs)

theorem rereadFields_fieldsOfJson :
    ∀ fs : List (String × Value), RereadFields fs (fieldsOfJson (fieldsToJson fs))
  | [] => .nil
  | (_, v) :: fs => .cons (reread_ofJson_toJson v) (rereadFields_fieldsOfJson fs)

end

mutual

/-- A value comes back as one value only. -/
theorem Reread.ofJson_toJson : ∀ {v w : Value}, Reread v w → ofJson v.toJson = w
  | _, _, .null | _, _, .bool _ | _, _, .int _ | _, _, .float _ | _, _, .str _ | _, _, .item _
  | _, _, .bytes _ => rfl
  | _, _, .list h => congrArg Value.list h.elemsOfJson_elemsToJson
  | _, _, .object h => congrArg Value.object h.fieldsOfJson_fieldsToJson

theorem RereadElems.elemsOfJson_elemsToJson :
    ∀ {vs ws : List Value}, RereadElems vs ws → elemsOfJson (elemsToJson vs) = ws
  | _, _, .nil => rfl
  | _, _, .cons h hrest => by
    rw [elemsToJson, elemsOfJson, h.ofJson_toJson, hrest.elemsOfJson_elemsToJson]

theorem RereadFields.fieldsOfJson_fieldsToJson :
    ∀ {fs gs : List (String × Value)}, RereadFields fs gs → fieldsOfJson (fieldsToJson fs) = gs
  | _, _, .nil => rfl
  | _, _, .cons h hrest => by
    rw [fieldsToJson, fieldsOfJson, h.ofJson_toJson, hrest.fieldsOfJson_fieldsToJson]

end

mutual

theorem reread_self_iff : ∀ v : Value, Reread v v ↔ v.Plain
  | .null => iff_of_true .null trivial
  | .bool b => iff_of_true (.bool b) trivial
  | .int n => iff_of_true (.int n) trivial
  | .float x => iff_of_true (.float x) trivial
  | .str s => iff_of_true (.str s) trivial
  | .item _ | .bytes _ => iff_of_false nofun id
  | .list vs => by
    rw [Plain, ← rereadElems_self_iff vs]
    exact ⟨fun | .list h => h, .list⟩
  | .object fs => by
    rw [Plain, ← rereadFields_self_iff fs]
    exact ⟨fun | .object h => h, .object⟩

theorem rereadElems_self_iff : ∀ vs : List Value, RereadElems vs vs ↔ PlainElems vs
  | [] => iff_of_true .nil trivial
  | v :: vs => by
    rw [PlainElems, ← reread_self_iff v, ← rereadElems_self_iff vs]
    exact ⟨fun | .cons h hrest => ⟨h, hrest⟩, fun h => .cons h.1 h.2⟩

theorem rereadFields_self_iff : ∀ fs : List (String × Value), RereadFields fs fs ↔ PlainFields fs
  | [] => iff_of_true .nil trivial
  | (_, v) :: fs => by
    rw [PlainFields, ← reread_self_iff v, ← rereadFields_self_iff fs]
    exact ⟨fun | .cons h hrest => ⟨h, hrest⟩, fun h => .cons h.1 h.2⟩

end

theorem ofJson_toJson_eq_iff {v w : Value} : ofJson v.toJson = w ↔ Reread v w :=
  ⟨fun h => h ▸ reread_ofJson_toJson v, Reread.ofJson_toJson⟩

end Value

/-! ### Numbers -/

namespace Json

/-- An integer in the signed 64-bit range. -/
def asSigned? : Json → Option ℤ
  | .int n => if -signedLimit ≤ n ∧ n < signedLimit then some n else none
  | _ => none

/-- Takes a number by the first class that holds it: signed integers, unsigned integers, doubles.
What is no number is left to the last argument. -/
def byClass {α : Type} (int : ℤ → α) (float : Binary64 → α) (other : α) (number : Json) : α :=
  match number.asSigned?, number.asUnsigned?, number.asNumber? with
  | some n, _, _ => int n
  | none, some n, _ => int n
  | none, none, some x => float x
  | none, none, none => other

/-- A 64-bit integer is taken as an integer, and never as a double. -/
theorem byClass_int {α : Type} {int : ℤ → α} {float : Binary64 → α} {other : α} {n : ℤ}
    (h : Fits n) : byClass int float other (.int n) = int n := by
  unfold byClass asSigned? asUnsigned?
  by_cases hsigned : -signedLimit ≤ n ∧ n < signedLimit
  · simp [hsigned]
  · have hunsigned : 0 ≤ n ∧ n < unsignedLimit := by
      unfold Fits signedLimit unsignedLimit at *
      omega
    simp [hsigned, hunsigned, Int.toNat_of_nonneg hunsigned.1]

end Json

/-- **JSON survives the round trip, and values do up to enums and bytes.** A JSON value that is read
as a value is written as itself, with all keys in order. A value that is written as JSON is read as
the value with strings for the items of enums and nulls for bytes, at any depth, and as no other; it
is read as itself just when neither is inside it. Both ways, 64-bit integers and doubles are carried
over as the first class of numbers that holds them. -/
theorem conversions_round_trip :
    (∀ j : Json, (Value.ofJson j).toJson = j) ∧
    (∀ v w : Value, Value.ofJson v.toJson = w ↔ Value.Reread v w) ∧
    (∀ v : Value, Value.ofJson v.toJson = v ↔ v.Plain) ∧
    (∀ n : ℤ, Json.Fits n →
      Value.ofJson (.int n) = Json.byClass .int .float .null (.int n) ∧
      (Value.int n).toJson = Json.byClass .int .float .null (.int n)) ∧
    (∀ x : Binary64,
      Value.ofJson (.float x) = Json.byClass .int .float .null (.float x) ∧
      (Value.float x).toJson = Json.byClass .int .float .null (.float x)) := by
  refine ⟨Value.toJson_ofJson, fun v w => Value.ofJson_toJson_eq_iff,
    fun v => Value.ofJson_toJson_eq_iff.trans (Value.reread_self_iff v), fun n hn => ?_,
    fun x => ⟨rfl, rfl⟩⟩
  rw [Json.byClass_int hn, Json.byClass_int hn]
  exact ⟨rfl, rfl⟩

/-- A sort order and a thumbnail in a list: the direction comes back as a string and the bytes as
null, next to the largest unsigned integer and the negative zero. -/
theorem conversions_round_trip_photo :
    let zero : Binary64 := ⟨true, 0⟩
    let photo : Value := .object [("size", .int 18446744073709551615), ("shift", .float zero),
      ("parts", .list [.object [("order", .item "ASC")], .bytes [255, 0]])]
    let reread : Value := .object [("size", .int 18446744073709551615), ("shift", .float zero),
      ("parts", .list [.object [("order", .str "ASC")], .null])]
    Value.ofJson photo.toJson = reread ∧ ¬ photo.Plain ∧ Value.ofJson reread.toJson = reread ∧
    Value.Reread photo reread ∧
    Value.ofJson (.int 18446744073709551615) =
      Json.byClass .int .float .null (.int 18446744073709551615) := by
  intro zero photo reread
  obtain ⟨-, hreread, hplain, hint, -⟩ := conversions_round_trip
  have hphoto : Value.Reread photo reread := (hreread photo reread).1 rfl
  refine ⟨rfl, fun h => ?_, (hplain reread).2 ?_, hphoto, (hint _ (by decide)).1⟩
  · exact absurd ((hplain photo).2 h) (by simp [photo, Value.toJson, Value.fieldsToJson,
      Value.elemsToJson, Value.ofJson, Value.fieldsOfJson, Value.elemsOfJson])
  · simp [reread, Value.Plain, Value.PlainFields, Value.PlainElems]

end EntityGraph
