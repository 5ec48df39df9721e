import EntityGraph.Proofs.Preorder
import EntityGraph.Proofs.Property.Descriptor

/-!
Descriptors that are refused. Below the descriptor of a shape stand those of its fields, in order,
and below that of an array stands that of its items. Whether a descriptor is ill-formed by itself is
told without what stands below it. A descriptor is refused for the first ill-formed descriptor in
it, and the error names the place by the keys of the shapes on the way down.
-/

namespace EntityGraph

/-! ### Errors seen from outside -/

namespace DescriptorError

/-- The error seen from outside the shapes that hold the descriptor under keys, outermost first. -/
def within (keys : List String) : DescriptorError → DescriptorError
  | .unknownType tag => .unknownType tag
  | .malformed path fault => .malformed (keys ++ path) fault

@[simp] theorem within_nil (e : DescriptorError) : e.within [] = e := by cases e <;> rfl

theorem within_within (ks ls : List String) (e : DescriptorError) :
    (e.within ls).within ks = e.within (ks ++ ls) := by
  cases e <;> simp [within]

theorem under_eq_within (key : String) (e : DescriptorError) : e.under key = e.within [key] := by
  cases e <;> rfl

/-- Every key on the path stands before the text of the fault, with a colon and a blank. -/
theorem place_eq (keys : List String) (fault : DescriptorFault) :
    place keys fault = String.join (keys.map (· ++ ": ")) ++ fault.message := by
  unfold place
  induction keys with
  | nil => simp
  | cons k ks ih =>
    rw [List.cons_append, String.intercalate_cons_of_ne_nil (by simp), ih, List.map_cons,
      String.join_cons]
    exact String.append_assoc.symm

end DescriptorError

theorem Json.sizeOf_lt_obj {fs : List (String × Json)} {f : String × Json} (h : f ∈ fs) :
    sizeOf f.2 < sizeOf (Json.obj fs) := by
  have hmem := List.sizeOf_lt_of_mem h
  have hpair : sizeOf f = 1 + sizeOf f.1 + sizeOf f.2 := rfl
  rw [Json.obj.sizeOf_spec]
  omega

namespace PropertyType

/-! ### Descriptors inside descriptors -/

/-- The descriptors directly inside one, in order, each with its key if it is a field of a shape. -/
def parts : Json → List (Option String × Json)
  | .obj fs =>
    match tagOf fs with
    | some "Shape" =>
      match Fields.get? fs "properties" with
      | some (.obj ps) => ps.map fun p => (some p.1, p.2)
      | _ => []
    | some "Array" => (Fields.get? fs "items").toList.map fun d => (none, d)
    | _ => []
  | _ => []

/-- The descriptors directly inside one, in order. -/
def inner (d : Json) : List Json := (parts d).map Prod.snd

/-- The keys of the shapes on the path down into a descriptor, outermost first. -/
def keysTo : Json → List ℕ → List String
  | _, [] => []
  | d, i :: path =>
    match (parts d)[i]? with
    | some (key, c) => key.toList ++ keysTo c path
    | none => []

/-- Why a bare tag describes no type. -/
def tagError? (tag : String) : Option DescriptorError :=
  if tag ∈ ["String", "Number", "Boolean", "Date"] then none
  else if tag = "Shape" then some (.malformed [] .shapeWithoutProperties)
  else if tag = "Array" then some (.malformed [] .arrayWithoutItems)
  else if tag = "SchemaType" then some (.malformed [] .referenceWithoutSchema)
  else some (.unknownType tag)

/-- **Why a descriptor is ill-formed by itself**: it has no tag, or the tag is that of no type, or
what the type needs besides its tag is missing. -/
def ownError? : Json → Option DescriptorError
  | .str tag => tagError? tag
  | .obj fs =>
    match tagOf fs with
    | none => some (.malformed [] .missingTag)
    | some "Shape" =>
      match Fields.get? fs "properties" with
      | some (.obj _) => none
      | _ => some (.malformed [] .shapeWithoutProperties)
    | some "Array" =>
      match Fields.get? fs "items" with
      | some _ => none
      | none => some (.malformed [] .arrayWithoutItems)
    | some "SchemaType" =>
      match Fields.get? fs "schema" with
      | some (.str _) => none
      | _ => some (.malformed [] .referenceWithoutSchema)
    | some tag => tagError? tag
  | d => some (.malformed [] (.notDescriptor d))

/-! ### One level -/

theorem refusal?_ofTag (tag : String) : refusal? (ofTag tag) = tagError? tag := by
  unfold ofTag tagError?
  by_cases hscalar : tag ∈ ["String", "Number", "Boolean", "Date"]
  · simp only [List.mem_cons, List.not_mem_nil, or_false] at hscalar
    rcases hscalar with rfl | rfl | rfl | rfl <;> rfl
  · have hnone : scalarOfTag? tag = none := by
      unfold scalarOfTag?
      split <;> simp_all
    rw [hnone, if_neg hscalar]
    dsimp only
    split_ifs <;> rfl

/-- The fields of a shape are refused as the first of them that is refused, under its key. -/
theorem refusal?_ofFields (ps : List (String × Json)) :
    refusal? (ofFields ps) =
      ps.findSome? fun p => (refusal? (ofDescriptor p.2)).map (·.within [p.1]) := by
  induction ps with
  | nil => rfl
  | cons p ps ih =>
    obtain ⟨k, d⟩ := p
    rw [ofFields, List.findSome?_cons, ← ih]
    cases ofDescriptor d with
    | error e => simp [refusal?, DescriptorError.under_eq_within]
    | ok t => exact refusal?_map _ _

/-- **A descriptor is refused for its own fault**, or else for that of the first descriptor directly
inside it that is refused. -/
theorem refusal?_ofDescriptor (d : Json) :
    refusal? (ofDescriptor d) =
      (ownError? d).or ((parts d).findSome? fun p =>
        (refusal? (ofDescriptor p.2)).map (·.within p.1.toList)) := by
  match d with
  | .null | .bool _ | .int _ | .float _ | .arr _ => simp [ofDescriptor, ownError?, refusal?]
  | .str tag =>
    rw [ofDescriptor, refusal?_ofTag]
    exact Option.or_none.symm
  | .obj fs =>
    rw [ofDescriptor, ownError?, parts]
    cases tagOf fs with
    | none => rfl
    | some tag =>
      dsimp only
      split_ifs with hshape harray hschema
      · subst hshape
        rw [ofProperties_eq]
        cases Fields.get? fs "properties" with
        | none => rfl
        | some v =>
          cases v with
          | obj ps =>
            show refusal? ((ofFields ps).map PropertyType.shape) =
              (ps.map fun p => (some p.1, p.2)).findSome? _
            rw [refusal?_map, refusal?_ofFields, List.findSome?_map]
            rfl
          | _ => rfl
      · subst harray
        rw [ofItems_eq]
        cases Fields.get? fs "items" with
        | none => rfl
        | some d =>
          dsimp only
          rw [refusal?_map]
          simp
      · subst hschema
        unfold ofSchema
        cases Fields.get? fs "schema" with
        | none => rfl
        | some v => cases v <;> rfl
      · rw [refusal?_ofTag]
        split <;> simp_all

/-! ### Places -/

theorem sizeOf_lt_of_mem_parts {d : Json} {p : Option String × Json} (h : p ∈ parts d) :
    sizeOf p.2 < sizeOf d := by
  unfold parts at h
  split at h
  · rename_i fs
    split at h
    · split at h
      · rename_i ps hps
        obtain ⟨f, hf, rfl⟩ := List.mem_map.1 h
        exact (Json.sizeOf_lt_obj hf).trans (Json.sizeOf_lt_obj (Fields.mem_of_get? hps))
      · exact absurd h List.not_mem_nil
    · obtain ⟨item, hitem, rfl⟩ := List.mem_map.1 h
      exact Json.sizeOf_lt_obj (Fields.mem_of_get? (Option.mem_toList.1 hitem))
    · exact absurd h List.not_mem_nil
  · exact absurd h List.not_mem_nil

/-- A descriptor inside another, with the keys of the shapes around it. -/
structure Place where
  keys : List String
  descriptor : Json

namespace Place

/-- The places directly below a place. -/
def below (p : Place) : List Place :=
  (parts p.descriptor).map fun c => ⟨p.keys ++ c.1.toList, c.2⟩

/-- The fault of a place, as it is seen from the root. -/
def fault? (p : Place) : Option DescriptorError := (ownError? p.descriptor).map (·.within p.keys)

/-- The refusal of a place, as it is seen from the root. -/
def failure? (p : Place) : Option DescriptorError :=
  (refusal? (ofDescriptor p.descriptor)).map (·.within p.keys)

theorem size_lt (p : Place) : ∀ c ∈ p.below, sizeOf c.descriptor < sizeOf p.descriptor := by
  intro c hc
  obtain ⟨part, hpart, rfl⟩ := List.mem_map.1 hc
  exact sizeOf_lt_of_mem_parts hpart

theorem failure?_eq (p : Place) : p.failure? = p.fault?.or (p.below.findSome? failure?) := by
  rw [failure?, refusal?_ofDescriptor, Option.map_or, below, List.findSome?_map,
    List.map_findSome?]
  congr 2
  funext c
  simp [failure?, Function.comp_def, DescriptorError.within_within]

/-- A path leads to the same descriptor with and without the keys on the way. -/
theorem placeAt?_eq (keys : List String) (d : Json) (path : List ℕ) :
    placeAt? below ⟨keys, d⟩ path =
      (placeAt? inner d path).map fun sub => ⟨keys ++ keysTo d path, sub⟩ := by
  induction path generalizing keys d with
  | nil => simp [keysTo]
  | cons i path ih =>
    rw [placeAt?, placeAt?, below, inner, List.getElem?_map, List.getElem?_map, keysTo]
    cases (parts d)[i]? with
    | none => rfl
    | some c =>
      show placeAt? below ⟨keys ++ c.1.toList, c.2⟩ path = _
      rw [ih]
      simp

end Place

/-- The first fault among the places is that of the first descriptor that is ill-formed. -/
theorem firstFault_iff {d : Json} {e : DescriptorError} :
    FirstFault Place.below Place.fault? ⟨[], d⟩ e ↔
      ∃ path sub own, placeAt? inner d path = some sub ∧ ownError? sub = some own ∧
        (∀ earlier < path, ∀ before, placeAt? inner d earlier = some before →
          ownError? before = none) ∧
        e = own.within (keysTo d path) := by
  constructor
  · rintro ⟨path, p, hp, hfault, hfirst⟩
    rw [Place.placeAt?_eq] at hp
    obtain ⟨sub, hsub, rfl⟩ := Option.map_eq_some_iff.1 hp
    obtain ⟨own, hown, rfl⟩ := Option.map_eq_some_iff.1 hfault
    refine ⟨path, sub, own, hsub, hown, fun earlier hlt before hbefore => ?_, rfl⟩
    refine Option.map_eq_none_iff.1 (hfirst earlier hlt ⟨keysTo d earlier, before⟩ ?_)
    rw [Place.placeAt?_eq, hbefore]
    rfl
  · rintro ⟨path, sub, own, hsub, hown, hfirst, rfl⟩
    refine ⟨path, ⟨keysTo d path, sub⟩, ?_, ?_, fun earlier hlt p hp => ?_⟩
    · rw [Place.placeAt?_eq, hsub]
      rfl
    · rw [Place.fault?, hown]
      rfl
    · rw [Place.placeAt?_eq] at hp
      obtain ⟨before, hbefore, rfl⟩ := Option.map_eq_some_iff.1 hp
      rw [Place.fault?, hfirst earlier hlt before hbefore]
      rfl

theorem forall_fault?_iff {d : Json} :
    (∀ path p, placeAt? Place.below ⟨[], d⟩ path = some p → p.fault? = none) ↔
      ∀ path sub, placeAt? inner d path = some sub → ownError? sub = none := by
  simp [Place.placeAt?_eq, Place.fault?]

/-! ### The errors of single descriptors -/

theorem tagError?_cases {tag : String} {own : DescriptorError} (h : tagError? tag = some own) :
    own = .unknownType tag ∨ ∃ fault, own = .malformed [] fault := by
  unfold tagError? at h
  split_ifs at h <;> cases h
  · exact .inr ⟨_, rfl⟩
  · exact .inr ⟨_, rfl⟩
  · exact .inr ⟨_, rfl⟩
  · exact .inl rfl

/-- A descriptor is ill-formed by itself for its tag, or for what it lacks. -/
theorem ownError?_cases {d : Json} {own : DescriptorError} (h : ownError? d = some own) :
    (∃ tag, own = .unknownType tag ∧
      (d = .str tag ∨ ∃ fs, d = .obj fs ∧ Fields.get? fs "type" = some (.str tag))) ∨
    ∃ fault, own = .malformed [] fault := by
  match d with
  | .null | .bool _ | .int _ | .float _ | .arr _ => exact .inr ⟨_, (Option.some.inj h).symm⟩
  | .str tag => exact (tagError?_cases h).imp_left fun hown => ⟨tag, hown, .inl rfl⟩
  | .obj fs =>
    rw [ownError?] at h
    split at h
    · exact .inr ⟨_, (Option.some.inj h).symm⟩
    · split at h <;> cases h
      exact .inr ⟨_, rfl⟩
    · split at h <;> cases h
      exact .inr ⟨_, rfl⟩
    · split at h <;> cases h
      exact .inr ⟨_, rfl⟩
    · rename_i tag _ _ _ htag
      refine (tagError?_cases h).imp_left fun hown => ⟨tag, hown, .inr ⟨fs, rfl, ?_⟩⟩
      exact tagOf_eq_some_iff.1 htag

/-- **Descriptors are refused for the first ill-formed descriptor in them**, in the order of the
fields, what is inside a field before the next field. The error is that of this descriptor: a tag
that is not known is reported as it is, and any other fault with the keys of the shapes on the path
before its text, outermost first. Arrays on the path add nothing. A descriptor without an ill-formed
one in it is accepted. -/
theorem refused_for_first_ill_formed (d : Json) :
    (∀ e, ofDescriptor d = .error e ↔
      ∃ path sub own, placeAt? inner d path = some sub ∧ ownError? sub = some own ∧
        (∀ earlier < path, ∀ before, placeAt? inner d earlier = some before →
          ownError? before = none) ∧
        e = own.within (keysTo d path)) ∧
    ((∃ t, ofDescriptor d = .ok t) ↔
      ∀ path sub, placeAt? inner d path = some sub → ownError? sub = none) ∧
    (∀ sub own, ownError? sub = some own →
      (∃ tag, own = .unknownType tag ∧
        (sub = .str tag ∨ ∃ fs, sub = .obj fs ∧ Fields.get? fs "type" = some (.str tag)) ∧
        ∀ keys, own.within keys = .unknownType tag) ∨
      ∃ fault, own = .malformed [] fault ∧
        ∀ keys, own.within keys = .malformed keys fault ∧
          DescriptorError.place keys fault =
            String.join (keys.map (· ++ ": ")) ++ fault.message) := by
  refine ⟨fun e => ?_, ?_, fun sub own hown => ?_⟩
  · have hfirst := failure_eq_some_iff (fun p : Place => sizeOf p.descriptor) Place.size_lt
      Place.failure?_eq ⟨[], d⟩ e
    rw [← firstFault_iff, ← hfirst, ← refusal?_eq_some_iff]
    simp [Place.failure?]
  · have hnone := failure_eq_none_iff (fun p : Place => sizeOf p.descriptor) Place.size_lt
      Place.failure?_eq ⟨[], d⟩
    rw [← forall_fault?_iff, ← hnone, ← refusal?_eq_none_iff]
    simp [Place.failure?]
  · rcases ownError?_cases hown with ⟨tag, rfl, hsub⟩ | ⟨fault, rfl⟩
    · exact .inl ⟨tag, rfl, hsub, fun keys => rfl⟩
    · refine .inr ⟨fault, rfl, fun keys => ⟨?_, DescriptorError.place_eq keys fault⟩⟩
      rw [DescriptorError.within, List.append_nil]

/-- An album whose pictures are cropped to a width that is no descriptor, with a field of an unknown
tag after them. The list of the pictures adds no key. -/
theorem refused_for_first_ill_formed_album :
    let crop : Json := .obj [("type", .str "Shape"),
      ("properties", .obj [("label", .str "String"), ("width", .int 3)])]
    let pictures : Json := .obj [("type", .str "Array"), ("items", crop)]
    let album : Json := .obj [("type", .str "Shape"),
      ("properties", .obj [("pictures", pictures), ("owner", .str "Person")])]
    ofDescriptor album = .error (.malformed ["pictures", "width"] (.notDescriptor (.int 3))) ∧
      (∃ path sub own, placeAt? inner album path = some sub ∧ ownError? sub = some own ∧
        keysTo album path = ["pictures", "width"]) ∧
      DescriptorError.place ["pictures", "width"] (.notDescriptor (.int 3)) =
        "pictures: width: expected a type tag or table, got 3" := by
  intro crop pictures album
  obtain ⟨hrefused, -, htext⟩ := refused_for_first_ill_formed album
  have herror : ofDescriptor album =
      .error (.malformed ["pictures", "width"] (.notDescriptor (.int 3))) := rfl
  refine ⟨herror, ?_, ?_⟩
  · obtain ⟨path, sub, own, hsub, hown, -, heq⟩ := (hrefused _).1 herror
    refine ⟨path, sub, own, hsub, hown, ?_⟩
    rcases htext sub own hown with ⟨tag, -, -, hwithin⟩ | ⟨fault, -, hwithin⟩
    · exact nomatch heq.trans (hwithin _)
    · exact (DescriptorError.malformed.inj (heq.trans (hwithin _).1)).1.symm
  · have hown : ownError? (.int 3) = some (.malformed [] (.notDescriptor (.int 3))) := rfl
    rcases htext _ _ hown with ⟨tag, hne, -⟩ | ⟨fault, heq, hwithin⟩
    · exact nomatch hne
    · obtain rfl := (DescriptorError.malformed.inj heq).2
      exact (hwithin ["pictures", "width"]).2.trans (by decide)

end PropertyType

end EntityGraph
