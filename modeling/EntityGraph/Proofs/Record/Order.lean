import EntityGraph.Proofs.Record.Sort

/-!
Where the order of sort keys is transitive. Numbers, booleans and texts each stand in a linear
order, but values of two classes count as equal, and so does everything next to a list or an
object: one value of another class between two that differ is enough to break transitivity. On a
timestamp field so is a text that is no timestamp, when it stands among the characters of two
timestamps in another order than their instants do. Apart from this the order of any keys is a
total preorder. No list of keys but the empty one is safe from it on all records.
-/

namespace EntityGraph

/-! ### Classes of values -/

/-- The classes of values that compare with each other. -/
inductive ValueClass where
  | number
  | boolean
  | text
deriving DecidableEq, Repr

/-- The class of a value. Null, lists and objects have none. -/
def Json.class? : Json → Option ValueClass
  | .int _ | .float _ => some .number
  | .bool _ => some .boolean
  | .str _ => some .text
  | .null | .arr _ | .obj _ => none

section

variable {kind : ValueKind} {v w : Json}

theorem Json.class?_eq_number_iff : v.class? = some .number ↔ ∃ x, v.asNumber? = some x := by
  cases v <;> simp [class?, asNumber?]

theorem Json.class?_eq_boolean_iff : v.class? = some .boolean ↔ ∃ b, v = .bool b := by
  cases v <;> simp [class?]

theorem Json.class?_eq_text_iff : v.class? = some .text ↔ ∃ s, v = .str s := by
  cases v <;> simp [class?]

theorem ValueKind.compare?_of_numbers {x y : Binary64} (hv : v.asNumber? = some x)
    (hw : w.asNumber? = some y) : kind.compare? v w = some (x.compare y) := by
  cases v with
  | int m =>
    cases w with
    | int n | float z => simp_all [ValueKind.compare?, Json.asNumber?]
    | _ => cases hw
  | float z =>
    cases w with
    | int n | float z' => simp_all [ValueKind.compare?, Json.asNumber?]
    | _ => cases hw
  | _ => cases hv

/-- A value of some class is not null, so a sort key sees it. -/
theorem Json.filter_of_class? (h : v.class? ≠ none) :
    (some v).filter (fun v => !v.isNull) = some v := by
  cases v <;> first | rfl | exact absurd rfl h

/-- Values of two classes do not compare, and values without a class do not either. -/
theorem ValueKind.compare?_eq_none (h : v.class? = w.class? → v.class? = none) :
    kind.compare? v w = none := by
  cases v <;> cases w <;> simp_all [ValueKind.compare?, Json.asNumber?, Json.class?]

end

/-! ### Texts -/

/-- A text that is no timestamp stands between two timestamps only when their instants stand in
the same order. -/
def Timestamp.Separated (V : String → Prop) : Prop :=
  ∀ s t u x y, V s → V t → V u → parse? s = some x → parse? t = some y → parse? u = none →
    s < u → u < t → x.nanos < y.nanos

section

variable {s t u : String}

theorem compare_texts_eq_lt : compare s t = .lt ↔ s < t := compareOfLessAndEq_eq_lt

theorem lt_of_isLE_of_ne (h : (compare s t).isLE = true) (hne : s ≠ t) : s < t := by
  rcases Ordering.isLE_iff_eq_lt_or_eq_eq.1 h with hlt | heq
  · exact compare_texts_eq_lt.1 hlt
  · exact absurd (Std.LawfulEqCmp.eq_of_compare heq) hne

theorem lt_of_not_isLE (h : ¬(compare s t).isLE = true) : t < s :=
  compare_texts_eq_lt.1 (Std.OrientedCmp.lt_of_not_isLE h)

namespace ValueKind

variable {x y : Timestamp}

theorem compareTexts_timestamps (hs : Timestamp.parse? s = some x)
    (ht : Timestamp.parse? t = some y) :
    timestamp.compareTexts s t = compare x.nanos y.nanos := by
  simp [compareTexts, Timestamp.compareTexts?, hs, ht]

theorem compareTexts_left (hs : Timestamp.parse? s = none) (kind : ValueKind) :
    kind.compareTexts s t = compare s t := by
  cases kind <;> simp [compareTexts, Timestamp.compareTexts?, hs]

theorem compareTexts_right (ht : Timestamp.parse? t = none) (kind : ValueKind) :
    kind.compareTexts s t = compare s t := by
  cases kind <;> cases hs : Timestamp.parse? s <;>
    simp [compareTexts, Timestamp.compareTexts?, hs, ht]

/-- Texts are ordered transitively: on a timestamp field, where those that are no timestamps keep
the timestamps apart. -/
theorem compareTexts_trans {kind : ValueKind} {V : String → Prop}
    (h : kind = .timestamp → Timestamp.Separated V) (hs : V s) (ht : V t) (hu : V u)
    (hst : (kind.compareTexts s t).isLE = true) (htu : (kind.compareTexts t u).isLE = true) :
    (kind.compareTexts s u).isLE = true := by
  cases kind with
  | plain => exact Std.TransOrd.isLE_trans (α := String) hst htu
  | timestamp =>
    have hsep := h rfl
    have hne : ∀ {a b : String} {z : Timestamp}, Timestamp.parse? a = some z →
        Timestamp.parse? b = none → a ≠ b := by
      rintro a _ z ha hb rfl
      exact Option.some_ne_none z (ha.symm.trans hb)
    -- the cases are which of the three texts are timestamps
    cases hx : Timestamp.parse? s with
    | none =>
      rw [compareTexts_left hx] at hst ⊢
      cases hy : Timestamp.parse? t with
      | none =>
        rw [compareTexts_left hy] at htu
        exact Std.TransCmp.isLE_trans hst htu
      | some y =>
        cases hz : Timestamp.parse? u with
        | none =>
          rw [compareTexts_right hz] at htu
          exact Std.TransCmp.isLE_trans hst htu
        | some z =>
          by_contra hsu
          have hst' : s < t := lt_of_isLE_of_ne hst (hne hy hx).symm
          have hlt := hsep u t s z y hu ht hs hz hy hx (lt_of_not_isLE hsu) hst'
          rw [compareTexts_timestamps hy hz] at htu
          exact Std.OrientedCmp.not_isLE_of_lt (Std.compare_eq_lt.2 hlt) htu
    | some x =>
      cases hy : Timestamp.parse? t with
      | none =>
        rw [compareTexts_right hy] at hst
        rw [compareTexts_left hy] at htu
        cases hz : Timestamp.parse? u with
        | none =>
          rw [compareTexts_right hz]
          exact Std.TransCmp.isLE_trans hst htu
        | some z =>
          have hst' : s < t := lt_of_isLE_of_ne hst (hne hx hy)
          have htu' : t < u := lt_of_isLE_of_ne htu (hne hz hy).symm
          have hlt := hsep s u t x z hs hu ht hx hz hy hst' htu'
          rw [compareTexts_timestamps hx hz, Std.compare_eq_lt.2 hlt]
          rfl
      | some y =>
        rw [compareTexts_timestamps hx hy] at hst
        cases hz : Timestamp.parse? u with
        | none =>
          rw [compareTexts_right hz] at htu ⊢
          by_contra hsu
          have htu' : t < u := lt_of_isLE_of_ne htu (hne hy hz)
          have hlt := hsep t s u y x ht hs hu hy hx hz htu' (lt_of_not_isLE hsu)
          exact Std.OrientedCmp.not_isLE_of_lt (Std.compare_eq_lt.2 hlt) hst
        | some z =>
          rw [compareTexts_timestamps hy hz] at htu
          rw [compareTexts_timestamps hx hz]
          exact Std.TransCmp.isLE_trans hst htu

/-- Where texts are ordered transitively, those that are no timestamps keep the timestamps
apart. -/
theorem separated_of_trans {V : String → Prop}
    (h : ∀ a b c, V a → V b → V c → (timestamp.compareTexts a b).isLE = true →
      (timestamp.compareTexts b c).isLE = true → (timestamp.compareTexts a c).isLE = true) :
    Timestamp.Separated V := by
  intro s t u x y hs ht hu hx hy hz hsu hut
  have hsu' : timestamp.compareTexts s u = .lt := by
    rw [compareTexts_right hz, compare_texts_eq_lt.2 hsu]
  have hut' : timestamp.compareTexts u t = .lt := by
    rw [compareTexts_left hz, compare_texts_eq_lt.2 hut]
  by_contra hle
  have hts : (timestamp.compareTexts t s).isLE = true := by
    rw [compareTexts_timestamps hy hx]
    exact Std.isLE_compare.2 (Int.not_lt.1 hle)
  -- going round from `t` to `s` to `u` leads back to `t`, although `u` comes before `t`
  have htu := h t s u ht hs hu hts (congrArg Ordering.isLE hsu')
  rw [compareTexts_swap, hut'] at htu
  cases htu

end ValueKind

end

/-! ### Values of one key -/

namespace ValueKind

/-- Values on which the order is transitive: no two of them are told apart, or they are of one
class, and among texts on a timestamp field those that are no timestamps keep the timestamps
apart. -/
inductive Coherent (kind : ValueKind) (V : Json → Prop) : Prop
  | level : (∀ v w, V v → V w → (kind.compare? v w).getD .eq = .eq) → Coherent kind V
  | uniform (c : ValueClass) : (∀ v, V v → v.class? = some c) →
      (kind = .timestamp → Timestamp.Separated fun s => V (.str s)) → Coherent kind V

variable {kind : ValueKind} {V : Json → Prop}

/-- The order of the values of a class is transitive. -/
def Transitive (kind : ValueKind) (V : Json → Prop) : Prop :=
  ∀ a b c, V a → V b → V c → ((kind.compare? a b).getD .eq).isLE = true →
    ((kind.compare? b c).getD .eq).isLE = true → ((kind.compare? a c).getD .eq).isLE = true

theorem Coherent.transitive (h : kind.Coherent V) : kind.Transitive V := by
  intro a b c ha hb hc hab hbc
  cases h with
  | level hlevel => rw [hlevel a c ha hc]; rfl
  | uniform cls hclass hsep =>
    cases cls with
    | number =>
      obtain ⟨x, hx⟩ := Json.class?_eq_number_iff.1 (hclass a ha)
      obtain ⟨y, hy⟩ := Json.class?_eq_number_iff.1 (hclass b hb)
      obtain ⟨z, hz⟩ := Json.class?_eq_number_iff.1 (hclass c hc)
      rw [compare?_of_numbers hx hy] at hab
      rw [compare?_of_numbers hy hz] at hbc
      rw [compare?_of_numbers hx hz]
      exact Std.TransOrd.isLE_trans hab hbc
    | boolean =>
      obtain ⟨x, rfl⟩ := Json.class?_eq_boolean_iff.1 (hclass a ha)
      obtain ⟨y, rfl⟩ := Json.class?_eq_boolean_iff.1 (hclass b hb)
      obtain ⟨z, rfl⟩ := Json.class?_eq_boolean_iff.1 (hclass c hc)
      exact Std.TransOrd.isLE_trans hab hbc
    | text =>
      obtain ⟨s, rfl⟩ := Json.class?_eq_text_iff.1 (hclass a ha)
      obtain ⟨t, rfl⟩ := Json.class?_eq_text_iff.1 (hclass b hb)
      obtain ⟨u, rfl⟩ := Json.class?_eq_text_iff.1 (hclass c hc)
      exact compareTexts_trans hsep ha hb hc hab hbc

/-- A value of another class next to two that differ breaks the order. -/
theorem Transitive.coherent (h : kind.Transitive V) : kind.Coherent V := by
  by_cases hlevel : ∀ v w, V v → V w → (kind.compare? v w).getD .eq = .eq
  · exact .level hlevel
  simp only [not_forall] at hlevel
  obtain ⟨v, w, hv, hw, hne⟩ := hlevel
  -- one of the two comes first
  obtain ⟨a, b, ha, hb, hab⟩ : ∃ a b, V a ∧ V b ∧ kind.compare? a b = some .lt := by
    cases hvw : kind.compare? v w with
    | none => simp [hvw] at hne
    | some o =>
      cases o with
      | lt => exact ⟨v, w, hv, hw, hvw⟩
      | eq => simp [hvw] at hne
      | gt => exact ⟨w, v, hw, hv, by rw [compare?_swap kind v w, hvw]; rfl⟩
  have hba : kind.compare? b a = some .gt := by rw [compare?_swap kind a b, hab]; rfl
  have hsame : a.class? = b.class? ∧ a.class? ≠ none := by
    by_contra hdiffer
    rw [compare?_eq_none fun he => by_contra fun hnone => hdiffer ⟨he, hnone⟩] at hab
    cases hab
  obtain ⟨c, hc⟩ := Option.ne_none_iff_exists'.1 hsame.2
  refine .uniform c (fun u hu => ?_) fun hkind => ?_
  · by_contra hclass
    have hbu : kind.compare? b u = none := compare?_eq_none fun he =>
      absurd (he.symm.trans (hsame.1.symm.trans hc)) hclass
    have hua : kind.compare? u a = none := compare?_eq_none fun he =>
      absurd (he.trans hc) hclass
    have hle := h b u a hb hu ha (by rw [hbu]; rfl) (by rw [hua]; rfl)
    rw [hba] at hle
    cases hle
  · subst hkind
    exact separated_of_trans fun s t u hs ht hu hst htu => h _ _ _ hs ht hu hst htu

theorem transitive_iff : kind.Transitive V ↔ kind.Coherent V :=
  ⟨Transitive.coherent, Coherent.transitive⟩

end ValueKind

/-! ### Records -/

/-- The order of the keys is transitive on the records of a class. -/
def TransitiveOn (keys : List SortKey) (P : Json → Prop) : Prop :=
  ∀ a b c, P a → P b → P c → InOrder keys a b → InOrder keys b c → InOrder keys a c

namespace SortKey

variable {k : SortKey} {P : Json → Prop}

/-- The values that records of a class have at a key stand in a transitive order. -/
def CoherentOn (k : SortKey) (P : Json → Prop) : Prop :=
  k.kind.Coherent fun v => ∃ r, P r ∧ k.value? r = some v

/-- Missing values come before all others, so they do no harm. -/
theorem ascendingOrder_trans_iff {kind : ValueKind} {W : Option Json → Prop} :
    (∀ a b c, W a → W b → W c → (ascendingOrder kind a b).isLE = true →
      (ascendingOrder kind b c).isLE = true → (ascendingOrder kind a c).isLE = true) ↔
      kind.Transitive fun v => W (some v) := by
  refine ⟨fun h a b c ha hb hc hab hbc => h _ _ _ ha hb hc hab hbc, fun h a b c ha hb hc => ?_⟩
  cases a with
  | none => intro _ _; cases c <;> rfl
  | some a =>
    cases b with
    | none => intro hab; cases hab
    | some b =>
      cases c with
      | none => intro _ hbc; cases hbc
      | some c => exact h a b c ha hb hc

theorem inOrder_singleton {a b : Json} :
    InOrder [k] a b ↔ (k.compare a b).isLE = true := by
  simp only [InOrder, compareRecords, Ordering.then_eq]

/-- A descending key is transitive where the ascending one is. -/
theorem transitiveOn_iff_ascending :
    TransitiveOn [k] P ↔ ∀ a b c, P a → P b → P c →
      (ascendingOrder k.kind (k.value? a) (k.value? b)).isLE = true →
      (ascendingOrder k.kind (k.value? b) (k.value? c)).isLE = true →
      (ascendingOrder k.kind (k.value? a) (k.value? c)).isLE = true := by
  simp only [TransitiveOn, inOrder_singleton, compare]
  cases k.direction with
  | ascending => rfl
  | descending =>
    simp only [← ascendingOrder_swap]
    exact ⟨fun h a b c ha hb hc hab hbc => h c b a hc hb ha hbc hab,
      fun h a b c ha hb hc hab hbc => h c b a hc hb ha hbc hab⟩

/-- **One key is transitive on exactly the records that it is coherent on.** -/
theorem transitiveOn_singleton_iff : TransitiveOn [k] P ↔ k.CoherentOn P := by
  let W : Option Json → Prop := fun o => ∃ r, P r ∧ k.value? r = o
  have hvalues : _ ↔ k.kind.Transitive fun v => W (some v) := ascendingOrder_trans_iff
  rw [transitiveOn_iff_ascending, CoherentOn, ← ValueKind.transitive_iff, ← hvalues]
  constructor
  · rintro h _ _ _ ⟨a, ha, rfl⟩ ⟨b, hb, rfl⟩ ⟨c, hc, rfl⟩ hab hbc
    exact h a b c ha hb hc hab hbc
  · intro h a b c ha hb hc hab hbc
    exact h _ _ _ ⟨a, ha, rfl⟩ ⟨b, hb, rfl⟩ ⟨c, hc, rfl⟩ hab hbc

end SortKey

section

variable {keys : List SortKey} {P : Json → Prop}

/-- Among the records of a class, several keys in order of precedence are transitive where each of
them is. -/
theorem transCmp_compareRecords (h : ∀ k ∈ keys, k.CoherentOn P) :
    Std.TransCmp fun a b : {r // P r} => compareRecords keys a b := by
  induction keys with
  | nil => exact { eq_swap := rfl, isLE_trans := fun _ _ => rfl }
  | cons k keys ih =>
    obtain ⟨hk, hkeys⟩ := List.forall_mem_cons.1 h
    have hfirst : Std.TransCmp fun a b : {r // P r} => k.compare a b :=
      { eq_swap := fun {a b} => k.compare_swap b a
        isLE_trans := fun {a b c} hab hbc => by
          have hle := SortKey.transitiveOn_singleton_iff.2 hk a b c a.2 b.2 c.2
          simp only [SortKey.inOrder_singleton] at hle
          exact hle hab hbc }
    have hrest := ih hkeys
    exact inferInstanceAs (Std.TransCmp (compareLex (fun a b : {r // P r} => k.compare a b)
      fun a b : {r // P r} => compareRecords keys a b))

theorem transitiveOn_of_coherent (h : ∀ k ∈ keys, k.CoherentOn P) : TransitiveOn keys P := by
  intro a b c ha hb hc hab hbc
  have htrans := @(transCmp_compareRecords h).isLE_trans
  exact @htrans ⟨a, ha⟩ ⟨b, hb⟩ ⟨c, hc⟩ hab hbc

end

/-! ### Records without an order -/

/-- The record that holds a value at the end of a path and nothing else. -/
def Record.nest (path : List String) (v : Json) : Json :=
  path.foldr (fun key v => .obj [(key, v)]) v

theorem Record.follow?_nest (path : List String) (v : Json) :
    follow? path (nest path v) = some v := by
  induction path with
  | nil => rfl
  | cons key path ih => simpa [nest, follow?, Json.get?, Fields.get?] using ih

namespace SortKey

/-- Two scalars of different classes at one place of a record are told apart by no path. -/
theorem ascendingOrder_nest {v w : Json} (kind : ValueKind) (path ks : List String)
    (hv : v.class? ≠ none) (hw : w.class? ≠ none) (hdiffer : v.class? ≠ w.class?) :
    ascendingOrder kind ((Record.follow? ks (Record.nest path v)).filter fun v => !v.isNull)
      ((Record.follow? ks (Record.nest path w)).filter fun v => !v.isNull) = .eq := by
  induction path generalizing ks with
  | nil =>
    cases ks with
    | nil =>
      have hnone : kind.compare? v w = none :=
        ValueKind.compare?_eq_none fun he => absurd he hdiffer
      simp only [Record.nest, Record.follow?, List.foldr_nil, Json.filter_of_class? hv,
        Json.filter_of_class? hw, ascendingOrder, hnone, Option.getD_none]
    | cons key ks =>
      have hnone : ∀ x : Json, x.class? ≠ none → x.get? key = none := by
        intro x hx
        cases x <;> first | rfl | exact absurd rfl hx
      simp [Record.nest, Record.follow?, hnone v hv, hnone w hw, ascendingOrder]
  | cons name path ih =>
    cases ks with
    | nil => rfl
    | cons key ks =>
      by_cases hkey : name = key
      · subst hkey
        simpa [Record.nest, Record.follow?, Json.get?, Fields.get?] using ih ks
      · simp [Record.nest, Record.follow?, Json.get?, Fields.get?, hkey, ascendingOrder]

variable {keys : List SortKey} {v w : Json}

theorem compareRecords_nest (path : List String) (hv : v.class? ≠ none) (hw : w.class? ≠ none)
    (hdiffer : v.class? ≠ w.class?) (keys : List SortKey) :
    compareRecords keys (Record.nest path v) (Record.nest path w) = .eq := by
  induction keys with
  | nil => rfl
  | cons k keys ih =>
    have hk : k.compare (Record.nest path v) (Record.nest path w) = .eq := by
      simp only [compare, value?, Record.lookup?,
        ascendingOrder_nest k.kind path (Record.pathKeys k.field) hv hw hdiffer]
      cases k.direction <;> rfl
    rw [compareRecords, hk, ih]
    rfl

/-- Two booleans with a text between them are not ordered, whatever the keys are. -/
theorem not_transitiveOn (k : SortKey) (keys : List SortKey) :
    ¬TransitiveOn (k :: keys) fun _ => True := by
  intro h
  let place (v : Json) : Json := Record.nest (Record.pathKeys k.field) v
  have hvalue : ∀ b, k.value? (place (.bool b)) = some (.bool b) := by
    intro b
    simp [place, value?, Record.lookup?, Record.follow?_nest, Json.isNull]
  have hbool : ∀ b, (Json.bool b).class? ≠ none := fun b => Option.some_ne_none _
  have htext : (Json.str "").class? ≠ none := Option.some_ne_none _
  have hdiffer : ∀ b, (Json.bool b).class? ≠ (Json.str "").class? := by
    intro b
    simp [Json.class?]
  have hbefore : ∀ b, InOrder (k :: keys) (place (.bool b)) (place (.str "")) := fun b =>
    congrArg Ordering.isLE (compareRecords_nest _ (hbool b) htext (hdiffer b) _)
  have hafter : ∀ b, InOrder (k :: keys) (place (.str "")) (place (.bool b)) := fun b =>
    congrArg Ordering.isLE (compareRecords_nest _ htext (hbool b) (hdiffer b).symm _)
  have hle : ∀ b c, (k.compare (place (.bool b)) (place (.bool c))).isLE = true := fun b c =>
    (Ordering.isLE_then_iff_and.1 (h _ _ _ trivial trivial trivial (hbefore b) (hafter c))).1
  simp only [compare, hvalue] at hle
  cases hdirection : k.direction with
  | ascending =>
    simp only [hdirection] at hle
    exact Bool.noConfusion (hle true false)
  | descending =>
    simp only [hdirection] at hle
    exact Bool.noConfusion (hle false true)

end SortKey

/-- **The order of sort keys.** Comparing two records the other way round always swaps the answer.
The order is transitive on all records only when there are no keys. On some of the records, that of
one key is transitive if and only if their values are coherent; and that of several keys is so
wherever the values of each of them are. -/
theorem preorder_where_coherent (keys : List SortKey) (P : Json → Prop) :
    (∀ a b, compareRecords keys b a = (compareRecords keys a b).swap) ∧
    (TransitiveOn keys (fun _ => True) ↔ keys = []) ∧
    (∀ k, keys = [k] → (TransitiveOn keys P ↔ k.CoherentOn P)) ∧
    ((∀ k ∈ keys, SortKey.CoherentOn k P) → TransitiveOn keys P) := by
  refine ⟨compareRecords_swap keys, ⟨fun h => ?_, ?_⟩, ?_, transitiveOn_of_coherent⟩
  · cases keys with
    | nil => rfl
    | cons k keys => exact absurd h (SortKey.not_transitiveOn k keys)
  · rintro rfl
    exact fun a b c _ _ _ _ _ => rfl
  · rintro k rfl
    exact SortKey.transitiveOn_singleton_iff

/-- The latest first. -/
def byTime : SortKey := ⟨"at", .descending, .timestamp⟩

/-- The smallest first. -/
def bySize : SortKey := ⟨"size", .ascending, .plain⟩

/-- Records of which one has no time and another one no timestamp. -/
def remarks : List Json :=
  [.obj [("at", .str "noon"), ("size", .int 2)],
    .obj [("at", .str "2024-01-01T00:00:00Z"), ("size", .null)], .obj [("size", .float ⟨false, 1⟩)]]

theorem byTime_coherentOn : byTime.CoherentOn (· ∈ remarks) := by
  have hvalues : remarks.map byTime.value? =
      [some (.str "noon"), some (.str "2024-01-01T00:00:00Z"), none] := rfl
  have hcases : ∀ {v}, (∃ r, r ∈ remarks ∧ byTime.value? r = some v) →
      v = .str "noon" ∨ v = .str "2024-01-01T00:00:00Z" := by
    rintro v ⟨r, hr, hv⟩
    have hmem := List.mem_map_of_mem (f := byTime.value?) hr
    rw [hv, hvalues] at hmem
    simpa using hmem
  have htime : ∀ {s x}, (∃ r, r ∈ remarks ∧ byTime.value? r = some (.str s)) →
      Timestamp.parse? s = some x → s = "2024-01-01T00:00:00Z" := by
    intro s x hs hx
    rcases hcases hs with hnoon | htime
    · have hnone : Timestamp.parse? "noon" = none := by decide
      rw [Json.str.inj hnoon, hnone] at hx
      cases hx
    · exact Json.str.inj htime
  refine .uniform .text (fun v hv => ?_) fun _ => ?_
  · rcases hcases hv with rfl | rfl <;> rfl
  · -- there is one timestamp, and no text stands between it and itself
    intro s t u x y hs ht _ hx hy _ hsu hut
    rw [htime hs hx] at hsu
    rw [htime ht hy] at hut
    exact absurd (Std.lt_trans hsu hut) Std.lt_irrefl

theorem bySize_coherentOn : bySize.CoherentOn (· ∈ remarks) := by
  have hvalues : remarks.map bySize.value? = [some (.int 2), none, some (.float ⟨false, 1⟩)] := rfl
  refine .uniform .number (fun v hv => ?_) fun hkind => (nomatch hkind)
  obtain ⟨r, hr, hv⟩ := hv
  have hmem := List.mem_map_of_mem (f := bySize.value?) hr
  rw [hv, hvalues] at hmem
  rcases List.mem_cons.1 hmem with h | hmem
  · rw [Option.some.inj h]
    rfl
  · obtain rfl : v = .float ⟨false, 1⟩ := by simpa using hmem
    rfl

/-- Two keys on records with missing values, a text that is no timestamp and two kinds of numbers. -/
theorem preorder_where_coherent_remarks :
    (∀ k ∈ [byTime, bySize], k.CoherentOn (· ∈ remarks)) ∧
      TransitiveOn [byTime, bySize] (· ∈ remarks) := by
  have hkeys : ∀ k ∈ [byTime, bySize], k.CoherentOn (· ∈ remarks) :=
    List.forall_mem_cons.2 ⟨byTime_coherentOn, List.forall_mem_singleton.2 bySize_coherentOn⟩
  obtain ⟨-, -, -, hcoherent⟩ := preorder_where_coherent [byTime, bySize] (· ∈ remarks)
  exact ⟨hkeys, hcoherent hkeys⟩

end EntityGraph
