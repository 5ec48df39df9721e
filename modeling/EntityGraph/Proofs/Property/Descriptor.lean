import EntityGraph.Property.Descriptor
import EntityGraph.Proofs.Traversal
import Mathlib.Tactic.SplitIfs

/-!
The language of descriptors. A relation says which descriptors there are and what type each of them
describes, without regard to how they are read. Reading accepts this language and nothing else, and
finds the type that is described. Every type is described by the descriptor that is written for it.
-/

namespace EntityGraph.PropertyType

/-! ### The language -/

mutual

/-- **What a descriptor describes.** A scalar is described by its tag, alone or under `type`; the
other types by an object with their tag and their content under a key of its own. What stands under
other keys does not count. -/
inductive Describes : Json → PropertyType → Prop
  | tag (k : ScalarKind) : Describes (.str k.tag) (.scalar k)
  | scalar {fs : List (String × Json)} {k : ScalarKind}
      (htag : Fields.get? fs "type" = some (.str k.tag)) : Describes (.obj fs) (.scalar k)
  | shape {fs ps : List (String × Json)} {ts : List (String × PropertyType)}
      (htag : Fields.get? fs "type" = some (.str "Shape"))
      (hproperties : Fields.get? fs "properties" = some (.obj ps)) (h : DescribesFields ps ts) :
      Describes (.obj fs) (.shape ts)
  | array {fs : List (String × Json)} {d : Json} {t : PropertyType}
      (htag : Fields.get? fs "type" = some (.str "Array"))
      (hitems : Fields.get? fs "items" = some d) (h : Describes d t) :
      Describes (.obj fs) (.array t)
  | reference {fs : List (String × Json)} {a : String}
      (htag : Fields.get? fs "type" = some (.str "SchemaType"))
      (hschema : Fields.get? fs "schema" = some (.str a)) : Describes (.obj fs) (.reference a)

/-- Descriptors under keys describe types under the same keys, in order. -/
inductive DescribesFields : List (String × Json) → List (String × PropertyType) → Prop
  | nil : DescribesFields [] []
  | cons {k : String} {d : Json} {t : PropertyType} {ps : List (String × Json)}
      {ts : List (String × PropertyType)} (h : Describes d t) (hrest : DescribesFields ps ts) :
      DescribesFields ((k, d) :: ps) ((k, t) :: ts)

end

/-! ### Reading one level -/

section

variable {tag : String} {fs gs ps : List (String × Json)} {d : Json} {t : PropertyType}
  {ts : List (String × PropertyType)} {k : ScalarKind}

theorem scalarOfTag?_eq_some_iff : scalarOfTag? tag = some k ↔ tag = k.tag := by
  constructor
  · intro h
    unfold scalarOfTag? at h
    split at h <;> cases h <;> rfl
  · rintro rfl
    cases k <;> rfl

/-- Only scalars are read from a bare tag. -/
theorem ofTag_eq_ok_iff : ofTag tag = .ok t ↔ ∃ k : ScalarKind, tag = k.tag ∧ t = .scalar k := by
  simp only [← scalarOfTag?_eq_some_iff]
  unfold ofTag
  cases scalarOfTag? tag with
  | some k => simp [eq_comm]
  | none =>
    dsimp only
    split_ifs <;> simp

theorem tagOf_eq_some_iff : tagOf fs = some tag ↔ Fields.get? fs "type" = some (.str tag) := by
  unfold tagOf
  cases Fields.get? fs "type" with
  | none => simp
  | some v => cases v <;> simp [Json.asString?]

theorem ofProperties_eq (fs : List (String × Json)) :
    ofProperties fs =
      match Fields.get? fs "properties" with
      | some (.obj ps) => (ofFields ps).map .shape
      | _ => .error (.malformed [] .shapeWithoutProperties) := by
  induction fs with
  | nil => rfl
  | cons f fs ih =>
    obtain ⟨name, d⟩ := f
    rw [Fields.get?_cons]
    by_cases hname : name = "properties"
    · cases d <;> simp [ofProperties, hname]
    · cases d <;> simp [ofProperties, hname, ih]

theorem ofItems_eq (fs : List (String × Json)) :
    ofItems fs =
      match Fields.get? fs "items" with
      | some d => (ofDescriptor d).map .array
      | none => .error (.malformed [] .arrayWithoutItems) := by
  induction fs with
  | nil => rfl
  | cons f fs ih =>
    obtain ⟨name, d⟩ := f
    rw [Fields.get?_cons, ofItems]
    split_ifs
    · rfl
    · exact ih

/-- A shape is read from the object under `properties`. -/
theorem ofProperties_eq_ok_iff : ofProperties fs = .ok t ↔
    ∃ ps ts, Fields.get? fs "properties" = some (.obj ps) ∧ ofFields ps = .ok ts ∧
      t = .shape ts := by
  rw [ofProperties_eq]
  constructor
  · intro h
    split at h
    · rename_i ps hps
      obtain ⟨ts, hts, rfl⟩ := exceptMap_eq_ok_iff.1 h
      exact ⟨ps, ts, hps, hts, rfl⟩
    · cases h
  · rintro ⟨ps, ts, hps, hts, rfl⟩
    rw [hps]
    exact exceptMap_eq_ok_iff.2 ⟨ts, hts, rfl⟩

/-- An array is read from what stands under `items`. -/
theorem ofItems_eq_ok_iff : ofItems fs = .ok t ↔
    ∃ d item, Fields.get? fs "items" = some d ∧ ofDescriptor d = .ok item ∧ t = .array item := by
  rw [ofItems_eq]
  cases Fields.get? fs "items" with
  | none => simp
  | some d => simp [exceptMap_eq_ok_iff, @eq_comm _ t]

/-- A reference is read from the alias under `schema`. -/
theorem ofSchema_eq_ok_iff : ofSchema fs = .ok t ↔
    ∃ a, Fields.get? fs "schema" = some (.str a) ∧ t = .reference a := by
  unfold ofSchema
  cases Fields.get? fs "schema" with
  | none => simp
  | some v => cases v <;> simp [Json.asString?, eq_comm]

theorem ofFields_cons_eq_ok_iff {name : String} :
    ofFields ((name, d) :: ps) = .ok ts ↔
      ∃ t rest, ofDescriptor d = .ok t ∧ ofFields ps = .ok rest ∧ ts = (name, t) :: rest := by
  rw [ofFields]
  cases ofDescriptor d with
  | error e => simp
  | ok t => simp [exceptMap_eq_ok_iff, @eq_comm _ ts]

/-- The tag of an object decides what it is read as. -/
theorem ofDescriptor_obj_eq_ok_iff : ofDescriptor (.obj fs) = .ok t ↔
    ∃ tag, Fields.get? fs "type" = some (.str tag) ∧
      ((∃ k : ScalarKind, tag = k.tag ∧ t = .scalar k) ∨
       (tag = "Shape" ∧ ofProperties fs = .ok t) ∨
       (tag = "Array" ∧ ofItems fs = .ok t) ∨
       (tag = "SchemaType" ∧ ofSchema fs = .ok t)) := by
  -- the bare tag of a type that is no scalar is refused
  have hbare : ∀ tag ∈ ["Shape", "Array", "SchemaType"], ofTag tag ≠ .ok t := by
    simp [ofTag, scalarOfTag?]
  simp only [← tagOf_eq_some_iff, ← ofTag_eq_ok_iff]
  rw [ofDescriptor]
  cases tagOf fs with
  | none => simp
  | some tag =>
    simp only [Option.some.injEq, exists_eq_left']
    split_ifs with hshape harray hschema
    · simp [hshape, hbare]
    · simp [harray, hbare]
    · simp [hschema, hbare]
    · simp [hshape, harray, hschema]

end

/-! ### Exactness -/

mutual

theorem describes_of_ok {d : Json} {t : PropertyType} (h : ofDescriptor d = .ok t) :
    Describes d t := by
  match d with
  | .null | .bool _ | .int _ | .float _ | .arr _ => simp [ofDescriptor] at h
  | .str tag =>
    obtain ⟨k, rfl, rfl⟩ := ofTag_eq_ok_iff.1 h
    exact .tag k
  | .obj fs =>
    obtain ⟨tag, htag, h⟩ := ofDescriptor_obj_eq_ok_iff.1 h
    obtain ⟨k, rfl, rfl⟩ | ⟨rfl, h⟩ | ⟨rfl, h⟩ | ⟨rfl, h⟩ := h
    · exact .scalar htag
    · obtain ⟨ps, ts, hproperties, hfields, rfl⟩ := ofProperties_eq_ok_iff.1 h
      exact .shape htag hproperties (describesFields_of_ok hfields)
    · obtain ⟨item, t, hitems, hitem, rfl⟩ := ofItems_eq_ok_iff.1 h
      exact .array htag hitems (describes_of_ok hitem)
    · obtain ⟨a, hschema, rfl⟩ := ofSchema_eq_ok_iff.1 h
      exact .reference htag hschema
termination_by sizeOf t

theorem describesFields_of_ok {ps : List (String × Json)} {ts : List (String × PropertyType)}
    (h : ofFields ps = .ok ts) : DescribesFields ps ts := by
  match ps with
  | [] =>
    obtain rfl := Except.ok.inj h
    exact .nil
  | (name, d) :: ps =>
    obtain ⟨t, rest, hd, hps, rfl⟩ := ofFields_cons_eq_ok_iff.1 h
    exact .cons (describes_of_ok hd) (describesFields_of_ok hps)
termination_by sizeOf ts

end

mutual

theorem Describes.ofDescriptor_eq : ∀ {d : Json} {t : PropertyType}, Describes d t →
    ofDescriptor d = .ok t
  | _, _, .tag k => ofTag_eq_ok_iff.2 ⟨k, rfl, rfl⟩
  | _, _, .scalar htag => ofDescriptor_obj_eq_ok_iff.2 ⟨_, htag, .inl ⟨_, rfl, rfl⟩⟩
  | _, _, .shape htag hproperties h =>
    ofDescriptor_obj_eq_ok_iff.2 ⟨_, htag, .inr (.inl ⟨rfl, ofProperties_eq_ok_iff.2
      ⟨_, _, hproperties, h.ofFields_eq, rfl⟩⟩)⟩
  | _, _, .array htag hitems h =>
    ofDescriptor_obj_eq_ok_iff.2 ⟨_, htag, .inr (.inr (.inl ⟨rfl, ofItems_eq_ok_iff.2
      ⟨_, _, hitems, h.ofDescriptor_eq, rfl⟩⟩))⟩
  | _, _, .reference htag hschema =>
    ofDescriptor_obj_eq_ok_iff.2 ⟨_, htag, .inr (.inr (.inr ⟨rfl, ofSchema_eq_ok_iff.2
      ⟨_, hschema, rfl⟩⟩))⟩

theorem DescribesFields.ofFields_eq : ∀ {ps : List (String × Json)}
    {ts : List (String × PropertyType)}, DescribesFields ps ts → ofFields ps = .ok ts
  | _, _, .nil => rfl
  | _, _, .cons h hrest =>
    ofFields_cons_eq_ok_iff.2 ⟨_, _, h.ofDescriptor_eq, hrest.ofFields_eq, rfl⟩

end

/-- Reading accepts the descriptors of the language, and no others. -/
theorem ofDescriptor_eq_ok_iff {d : Json} {t : PropertyType} :
    ofDescriptor d = .ok t ↔ Describes d t :=
  ⟨describes_of_ok, Describes.ofDescriptor_eq⟩

/-! ### Writing -/

mutual

/-- A type is described by what is written for it. -/
theorem describes_toDescriptor : ∀ t : PropertyType, Describes t.toDescriptor t
  | .scalar k => .tag k
  | .shape ts => .shape rfl rfl (describesFields_fieldDescriptors ts)
  | .array t => .array rfl rfl (describes_toDescriptor t)
  | .reference _ => .reference rfl rfl

theorem describesFields_fieldDescriptors :
    ∀ ts : List (String × PropertyType), DescribesFields (fieldDescriptors ts) ts
  | [] => .nil
  | (_, t) :: ts => .cons (describes_toDescriptor t) (describesFields_fieldDescriptors ts)

end

/-! ### Other keys -/

/-- The keys that a descriptor is read from. -/
def descriptorKeys : List String := ["type", "properties", "items", "schema"]

/-- Descriptors that agree under the keys that count are read alike. -/
theorem ofDescriptor_obj_congr {fs gs : List (String × Json)}
    (h : ∀ key ∈ descriptorKeys, Fields.get? fs key = Fields.get? gs key) :
    ofDescriptor (.obj fs) = ofDescriptor (.obj gs) := by
  simp only [descriptorKeys, List.forall_mem_cons] at h
  obtain ⟨htype, hproperties, hitems, hschema, -⟩ := h
  rw [ofDescriptor, ofDescriptor, ofProperties_eq, ofProperties_eq, ofItems_eq, ofItems_eq]
  unfold tagOf ofSchema
  rw [htype, hproperties, hitems, hschema]

/-- **Descriptors are read exactly.** What is read as a type is what describes it, and nothing else
is read; the descriptor that is written for a type is read as that type; and nothing counts but
what stands under the keys of descriptors, neither for the type nor for the error. -/
theorem ofDescriptor_exact :
    (∀ d t, ofDescriptor d = .ok t ↔ Describes d t) ∧
    (∀ t : PropertyType, Describes t.toDescriptor t ∧ ofDescriptor t.toDescriptor = .ok t) ∧
    (∀ fs gs : List (String × Json),
      (∀ key ∈ descriptorKeys, Fields.get? fs key = Fields.get? gs key) →
      ofDescriptor (.obj fs) = ofDescriptor (.obj gs)) :=
  ⟨fun _ _ => ofDescriptor_eq_ok_iff,
    fun t => ⟨describes_toDescriptor t, (describes_toDescriptor t).ofDescriptor_eq⟩,
    fun _ _ => ofDescriptor_obj_congr⟩

/-- The crops of an image, each with an owner. A label on the list is passed over, the shape keeps
its order, and the bare tag of a shape describes nothing. -/
theorem ofDescriptor_exact_crops :
    let owner : Json := .obj [("type", .str "SchemaType"), ("schema", .str "person")]
    let crop : Json := .obj [("type", .str "Shape"),
      ("properties", .obj [("width", .str "Number"), ("owner", owner)])]
    let type : PropertyType :=
      .array (.shape [("width", .scalar .number), ("owner", .reference "person")])
    Describes (.obj [("label", .str "Crops"), ("items", crop), ("type", .str "Array")]) type ∧
    ofDescriptor (.obj [("label", .str "Crops"), ("items", crop), ("type", .str "Array")]) =
      ofDescriptor type.toDescriptor ∧
    ¬ ∃ t, Describes (.str "Shape") t := by
  intro owner crop type
  obtain ⟨hread, hwritten, hother⟩ := ofDescriptor_exact
  have hcongr := hother [("label", .str "Crops"), ("items", crop), ("type", .str "Array")]
    [("type", .str "Array"), ("items", crop)] (by
      simp only [descriptorKeys, List.forall_mem_cons]
      exact ⟨rfl, rfl, rfl, rfl, List.forall_mem_nil _⟩)
  refine ⟨(hread _ _).1 (hcongr.trans (hwritten type).2), hcongr, ?_⟩
  rintro ⟨t, h⟩
  have hok := (hread _ _).2 h
  simp [ofDescriptor, ofTag, scalarOfTag?] at hok

end EntityGraph.PropertyType
