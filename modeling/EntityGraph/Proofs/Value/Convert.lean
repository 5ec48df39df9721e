import EntityGraph.Graph.Value

/-!
Conversion of values to JSON and back. Lists and objects are converted member by member, in order
and under the same keys. What is read from a JSON value is written as that JSON value again.
-/

namespace EntityGraph.Value

/-! ### Members -/

theorem elemsToJson_eq (vs : List Value) : elemsToJson vs = vs.map toJson := by
  induction vs with
  | nil => rfl
  | cons v vs ih => rw [elemsToJson, ih, List.map_cons]

theorem fieldsToJson_eq (fs : Fields Value) :
    fieldsToJson fs = fs.map fun f => (f.1, f.2.toJson) := by
  induction fs with
  | nil => rfl
  | cons f fs ih =>
    obtain ⟨k, v⟩ := f
    rw [fieldsToJson, ih, List.map_cons]

theorem fieldsOfJson_eq (fs : Fields Json) :
    fieldsOfJson fs = fs.map fun f => (f.1, ofJson f.2) := by
  induction fs with
  | nil => rfl
  | cons f fs ih =>
    obtain ⟨k, v⟩ := f
    rw [fieldsOfJson, ih, List.map_cons]

theorem get?_fieldsToJson (fs : Fields Value) (key : String) :
    Fields.get? (fieldsToJson fs) key = (fs.get? key).map toJson := by
  rw [fieldsToJson_eq, Fields.get?_map]

theorem get?_fieldsOfJson (fs : Fields Json) (key : String) :
    Fields.get? (fieldsOfJson fs) key = (fs.get? key).map ofJson := by
  rw [fieldsOfJson_eq, Fields.get?_map]

theorem fieldsToJson_insert (fs : Fields Value) (key : String) (v : Value) :
    fieldsToJson (fs.insert key v) = Fields.insert (fieldsToJson fs) key v.toJson := by
  induction fs with
  | nil => rfl
  | cons f fs ih =>
    obtain ⟨k, w⟩ := f
    by_cases h : k = key
    · simp [Fields.insert, fieldsToJson, h]
    · simp [Fields.insert, fieldsToJson, h, ih]

theorem keys_fieldsToJson (fs : Fields Value) : Fields.keys (fieldsToJson fs) = fs.keys := by
  simp only [Fields.keys, fieldsToJson_eq, List.map_map]
  rfl

theorem keys_fieldsOfJson (fs : Fields Json) : Fields.keys (fieldsOfJson fs) = fs.keys := by
  simp only [Fields.keys, fieldsOfJson_eq, List.map_map]
  rfl

/-! ### Round trip -/

mutual

/-- **Nothing of a JSON value is lost when it is read as a value.** -/
theorem toJson_ofJson : ∀ j : Json, (ofJson j).toJson = j
  | .null | .bool _ | .int _ | .float _ | .str _ => rfl
  | .arr xs => by rw [ofJson, toJson, elemsToJson_elemsOfJson xs]
  | .obj fs => by rw [ofJson, toJson, fieldsToJson_fieldsOfJson fs]

theorem elemsToJson_elemsOfJson : ∀ xs : List Json, elemsToJson (elemsOfJson xs) = xs
  | [] => rfl
  | x :: xs => by rw [elemsOfJson, elemsToJson, toJson_ofJson x, elemsToJson_elemsOfJson xs]

theorem fieldsToJson_fieldsOfJson :
    ∀ fs : List (String × Json), fieldsToJson (fieldsOfJson fs) = fs
  | [] => rfl
  | (k, v) :: fs => by
    rw [fieldsOfJson, fieldsToJson, toJson_ofJson v, fieldsToJson_fieldsOfJson fs]

end

end EntityGraph.Value
