import EntityGraph.Proofs.Record.Order
import EntityGraph.Proofs.Text.Bytes

/-!
What sorting makes of records. The places of values are described without the comparison: null
stands below all others, numbers stand by value, booleans with false first, texts by their bytes
and timestamps by instant. Where the values of every key are numbers, or booleans, or texts, or
timestamps, sorting arranges the records by their keys in order of precedence, and records that
are level on every key keep the order in which they came.
-/

namespace EntityGraph

/-! ### The places of values -/

namespace ValueKind

/-- A value stands below another one. -/
inductive Below (kind : ValueKind) : Json → Json → Prop
  | null {w : Json} : w ≠ .null → Below kind .null w
  | number {v w : Json} {x y : Binary64} : v.asNumber? = some x → w.asNumber? = some y →
      x.value < y.value → Below kind v w
  | boolean : Below kind (.bool false) (.bool true)
  | text {s t : String} : kind = .plain → Text.bytes s < Text.bytes t →
      Below kind (.str s) (.str t)
  | timestamp {s t : String} {x y : Timestamp} : kind = .timestamp →
      Timestamp.parse? s = some x → Timestamp.parse? t = some y → x.nanos < y.nanos →
      Below kind (.str s) (.str t)

/-- Two values stand at the same place. -/
inductive Level (kind : ValueKind) : Json → Json → Prop
  | null : Level kind .null .null
  | number {v w : Json} {x y : Binary64} : v.asNumber? = some x → w.asNumber? = some y →
      x.value = y.value → Level kind v w
  | boolean (b : Bool) : Level kind (.bool b) (.bool b)
  | text (s : String) : kind = .plain → Level kind (.str s) (.str s)
  | timestamp {s t : String} {x y : Timestamp} : kind = .timestamp →
      Timestamp.parse? s = some x → Timestamp.parse? t = some y → x.nanos = y.nanos →
      Level kind (.str s) (.str t)

/-- Values that are all numbers, or all booleans, or all texts, or all timestamps. -/
inductive Uniform (kind : ValueKind) (V : Json → Prop) : Prop
  | numbers : (∀ v, V v → ∃ x, v.asNumber? = some x) → Uniform kind V
  | booleans : (∀ v, V v → ∃ b, v = .bool b) → Uniform kind V
  | texts : kind = .plain → (∀ v, V v → ∃ s, v = .str s) → Uniform kind V
  | timestamps : kind = .timestamp →
      (∀ v, V v → ∃ s x, v = .str s ∧ Timestamp.parse? s = some x) → Uniform kind V

variable {kind : ValueKind} {V : Json → Prop} {v w : Json}

theorem Uniform.coherent (h : kind.Uniform V) : kind.Coherent V := by
  cases h with
  | numbers h =>
    refine .uniform .number (fun v hv => Json.class?_eq_number_iff.2 (h v hv)) fun _ => ?_
    intro s _ _ _ _ hs
    obtain ⟨x, hx⟩ := h _ hs
    cases hx
  | booleans h =>
    refine .uniform .boolean (fun v hv => Json.class?_eq_boolean_iff.2 (h v hv)) fun _ => ?_
    intro s _ _ _ _ hs
    obtain ⟨b, hb⟩ := h _ hs
    cases hb
  | texts hkind h =>
    refine .uniform .text (fun v hv => Json.class?_eq_text_iff.2 (h v hv)) fun htime => ?_
    rw [hkind] at htime
    cases htime
  | timestamps hkind h =>
    refine .uniform .text (fun v hv => ?_) fun _ => ?_
    · obtain ⟨s, x, rfl, -⟩ := h v hv
      rfl
    · -- there is no text that is no timestamp
      intro s t u x y hs ht hu hx hy hz
      obtain ⟨u', z, hu', hz'⟩ := h _ hu
      obtain rfl := Json.str.inj hu'
      rw [hz] at hz'
      cases hz'

theorem Level.symm (h : kind.Level v w) : kind.Level w v := by
  cases h with
  | null => exact .null
  | number hv hw hxy => exact .number hw hv hxy.symm
  | boolean b => exact .boolean b
  | text s hkind => exact .text s hkind
  | timestamp hkind hs ht hxy => exact .timestamp hkind ht hs hxy.symm

/-- Only null stands where null stands. -/
theorem Level.eq_null (h : kind.Level .null w) : w = .null := by
  cases h with
  | null => rfl
  | number hv => cases hv

theorem Uniform.below_of_lt (h : kind.Uniform V) (hv : V v) (hw : V w)
    (hlt : (kind.compare? v w).getD .eq = .lt) : kind.Below v w := by
  cases h with
  | numbers h =>
    obtain ⟨x, hx⟩ := h v hv
    obtain ⟨y, hy⟩ := h w hw
    rw [compare?_of_numbers hx hy] at hlt
    exact .number hx hy (Std.compare_eq_lt.1 hlt)
  | booleans h =>
    obtain ⟨a, rfl⟩ := h v hv
    obtain ⟨b, rfl⟩ := h w hw
    cases a <;> cases b <;> first | exact .boolean | cases hlt
  | texts hkind h =>
    obtain ⟨s, rfl⟩ := h v hv
    obtain ⟨t, rfl⟩ := h w hw
    subst hkind
    exact .text rfl (Text.bytes_lt_bytes_iff.2 (compare_texts_eq_lt.1 hlt))
  | timestamps hkind h =>
    obtain ⟨s, x, rfl, hx⟩ := h v hv
    obtain ⟨t, y, rfl, hy⟩ := h w hw
    subst hkind
    have hinstants : timestamp.compareTexts s t = .lt := hlt
    rw [compareTexts_timestamps hx hy] at hinstants
    exact .timestamp rfl hx hy (Std.compare_eq_lt.1 hinstants)

theorem Uniform.level_of_eq (h : kind.Uniform V) (hv : V v) (hw : V w)
    (heq : (kind.compare? v w).getD .eq = .eq) : kind.Level v w := by
  cases h with
  | numbers h =>
    obtain ⟨x, hx⟩ := h v hv
    obtain ⟨y, hy⟩ := h w hw
    rw [compare?_of_numbers hx hy] at heq
    exact .number hx hy (Std.compare_eq_iff_eq.1 heq)
  | booleans h =>
    obtain ⟨a, rfl⟩ := h v hv
    obtain ⟨b, rfl⟩ := h w hw
    obtain rfl : a = b := Std.compare_eq_iff_eq.1 heq
    exact .boolean a
  | texts hkind h =>
    obtain ⟨s, rfl⟩ := h v hv
    obtain ⟨t, rfl⟩ := h w hw
    subst hkind
    have htexts : compare s t = .eq := heq
    obtain rfl : s = t := Std.LawfulEqCmp.eq_of_compare htexts
    exact .text s rfl
  | timestamps hkind h =>
    obtain ⟨s, x, rfl, hx⟩ := h v hv
    obtain ⟨t, y, rfl, hy⟩ := h w hw
    subst hkind
    have hinstants : timestamp.compareTexts s t = .eq := heq
    rw [compareTexts_timestamps hx hy] at hinstants
    exact .timestamp rfl hx hy (Std.compare_eq_iff_eq.1 hinstants)

theorem Level.eq (h : kind.Level v w) : (kind.compare? v w).getD .eq = .eq := by
  cases h with
  | null => rfl
  | number hx hy hxy =>
    rw [compare?_of_numbers hx hy]
    exact Std.compare_eq_iff_eq.2 hxy
  | boolean b => exact Std.compare_eq_iff_eq.2 rfl
  | text s hkind =>
    subst hkind
    have hself : compare s s = .eq := Std.ReflCmp.compare_self
    exact hself
  | timestamp hkind hx hy hxy =>
    subst hkind
    have hinstants := compareTexts_timestamps hx hy
    rw [Std.compare_eq_iff_eq.2 hxy] at hinstants
    exact hinstants

end ValueKind

/-! ### The places of records -/

namespace SortKey

/-- The key puts a record before another one. -/
def Before (k : SortKey) (a b : Json) : Prop :=
  match k.direction with
  | .ascending => k.kind.Below (Record.valueAt a k.field) (Record.valueAt b k.field)
  | .descending => k.kind.Below (Record.valueAt b k.field) (Record.valueAt a k.field)

/-- The key does not tell two records apart. -/
def Level (k : SortKey) (a b : Json) : Prop :=
  k.kind.Level (Record.valueAt a k.field) (Record.valueAt b k.field)

/-- The values that records have at a key, null and missing ones apart, are all numbers, or all
booleans, or all texts, or all timestamps. -/
def UniformOn (k : SortKey) (records : List Json) : Prop :=
  k.kind.Uniform fun v => v ≠ .null ∧ ∃ r ∈ records, Record.valueAt r k.field = v

end SortKey

/-- The first key that tells two records apart puts the one before the other. -/
inductive Precedes : List SortKey → Json → Json → Prop
  | first {k : SortKey} {keys : List SortKey} {a b : Json} :
      k.Before a b → Precedes (k :: keys) a b
  | next {k : SortKey} {keys : List SortKey} {a b : Json} :
      k.Level a b → Precedes keys a b → Precedes (k :: keys) a b

/-- No key tells two records apart. -/
def LevelOn (keys : List SortKey) (a b : Json) : Prop := ∀ k ∈ keys, k.Level a b

/-- The second list has the records of the first, arranged by the keys in order of precedence.
Records that are level on every key stand as they stood before. -/
structure Arranged (keys : List SortKey) (records sorted : List Json) : Prop where
  perm : sorted.Perm records
  arranged : sorted.Pairwise fun a b => Precedes keys a b ∨ LevelOn keys a b
  kept : ∀ part : List Json, part.Sublist records → part.Pairwise (LevelOn keys) →
    part.Sublist sorted

namespace SortKey

variable {k : SortKey} {records : List Json} {a b : Json}

theorem value?_eq_some_iff {r v : Json} :
    k.value? r = some v ↔ v ≠ .null ∧ Record.valueAt r k.field = v := by
  have hnull : ∀ w : Json, (!w.isNull) = true ↔ w ≠ .null := by
    intro w
    cases w <;> simp [Json.isNull]
  rw [value?, Record.valueAt, Option.filter_eq_some_iff, hnull]
  cases Record.lookup? r k.field with
  | none =>
    constructor
    · intro h
      exact absurd h.1.symm (Option.some_ne_none v)
    · rintro ⟨hne, rfl⟩
      exact absurd rfl hne
  | some w => rw [Option.some_inj, Option.getD_some, and_comm]

theorem value?_eq_none_iff {r : Json} : k.value? r = none ↔ Record.valueAt r k.field = .null := by
  unfold value? Record.valueAt
  cases Record.lookup? r k.field with
  | none => simp
  | some w => cases w <;> simp [Option.filter, Json.isNull]

theorem UniformOn.coherentOn (h : k.UniformOn records) : k.CoherentOn (· ∈ records) := by
  have hsame : (fun v => v ≠ .null ∧ ∃ r ∈ records, Record.valueAt r k.field = v) =
      fun v => ∃ r, r ∈ records ∧ k.value? r = some v := by
    funext v
    simp only [value?_eq_some_iff, eq_iff_iff]
    constructor
    · rintro ⟨hne, r, hr, hv⟩
      exact ⟨r, hr, hne, hv⟩
    · rintro ⟨r, hr, hne, hv⟩
      exact ⟨hne, r, hr, hv⟩
  rw [CoherentOn, ← hsame]
  exact ValueKind.Uniform.coherent h

section

variable (h : k.UniformOn records) (ha : a ∈ records) (hb : b ∈ records)
include h ha hb

theorem UniformOn.below_of_lt
    (hlt : ascendingOrder k.kind (k.value? a) (k.value? b) = .lt) :
    k.kind.Below (Record.valueAt a k.field) (Record.valueAt b k.field) := by
  cases hv : k.value? a with
  | none =>
    rw [value?_eq_none_iff.1 hv]
    cases hw : k.value? b with
    | none =>
      rw [hv, hw] at hlt
      cases hlt
    | some w =>
      obtain ⟨hne, hval⟩ := value?_eq_some_iff.1 hw
      exact .null (hval ▸ hne)
  | some v =>
    obtain ⟨hv', hval⟩ := value?_eq_some_iff.1 hv
    cases hw : k.value? b with
    | none =>
      rw [hv, hw] at hlt
      cases hlt
    | some w =>
      obtain ⟨hw', hwal⟩ := value?_eq_some_iff.1 hw
      rw [hv, hw] at hlt
      rw [hval, hwal]
      exact ValueKind.Uniform.below_of_lt h ⟨hv', a, ha, hval⟩ ⟨hw', b, hb, hwal⟩ hlt

theorem UniformOn.ascendingOrder_eq_iff :
    ascendingOrder k.kind (k.value? a) (k.value? b) = .eq ↔ k.Level a b := by
  rw [Level]
  cases hv : k.value? a with
  | none =>
    rw [value?_eq_none_iff.1 hv]
    cases hw : k.value? b with
    | none =>
      rw [value?_eq_none_iff.1 hw]
      exact ⟨fun _ => .null, fun _ => rfl⟩
    | some w =>
      obtain ⟨hne, hval⟩ := value?_eq_some_iff.1 hw
      rw [hval]
      exact ⟨fun heq => (nomatch heq), fun hlevel => absurd hlevel.eq_null hne⟩
  | some v =>
    obtain ⟨hv', hval⟩ := value?_eq_some_iff.1 hv
    rw [hval]
    cases hw : k.value? b with
    | none =>
      rw [value?_eq_none_iff.1 hw]
      exact ⟨fun heq => (nomatch heq), fun hlevel => absurd hlevel.symm.eq_null hv'⟩
    | some w =>
      obtain ⟨hw', hwal⟩ := value?_eq_some_iff.1 hw
      rw [hwal]
      exact ⟨ValueKind.Uniform.level_of_eq h ⟨hv', a, ha, hval⟩ ⟨hw', b, hb, hwal⟩,
        fun hlevel => hlevel.eq⟩

theorem UniformOn.compare_eq_iff : k.compare a b = .eq ↔ k.Level a b := by
  rw [← h.ascendingOrder_eq_iff ha hb, compare]
  cases k.direction with
  | ascending => rfl
  | descending => exact Ordering.swap_eq_eq

theorem UniformOn.before_of_lt (hlt : k.compare a b = .lt) : k.Before a b := by
  rw [compare] at hlt
  rw [Before]
  cases hdirection : k.direction with
  | ascending =>
    rw [hdirection] at hlt
    exact h.below_of_lt ha hb hlt
  | descending =>
    simp only [hdirection, ← ascendingOrder_swap] at hlt
    exact h.below_of_lt hb ha hlt

end

end SortKey

/-! ### Sorted records -/

section

variable {keys : List SortKey} {records : List Json} {a b : Json}
  (h : ∀ k ∈ keys, k.UniformOn records) (ha : a ∈ records) (hb : b ∈ records)
include h ha hb

theorem compareRecords_eq_iff : compareRecords keys a b = .eq ↔ LevelOn keys a b := by
  induction keys with
  | nil => exact ⟨fun _ k hk => absurd hk List.not_mem_nil, fun _ => rfl⟩
  | cons k keys ih =>
    obtain ⟨hk, hkeys⟩ := List.forall_mem_cons.1 h
    rw [compareRecords, Ordering.then_eq_eq, hk.compare_eq_iff ha hb, ih hkeys, LevelOn, LevelOn,
      List.forall_mem_cons]

theorem precedes_of_lt (hlt : compareRecords keys a b = .lt) : Precedes keys a b := by
  induction keys with
  | nil => cases hlt
  | cons k keys ih =>
    obtain ⟨hk, hkeys⟩ := List.forall_mem_cons.1 h
    rcases Ordering.then_eq_lt.1 hlt with hfirst | ⟨heq, hrest⟩
    · exact .first (hk.before_of_lt ha hb hfirst)
    · exact .next ((hk.compare_eq_iff ha hb).1 heq) (ih hkeys hrest)

theorem precedes_or_levelOn_of_inOrder (hab : InOrder keys a b) :
    Precedes keys a b ∨ LevelOn keys a b := by
  rcases Ordering.isLE_iff_eq_lt_or_eq_eq.1 hab with hlt | heq
  · exact .inl (precedes_of_lt h ha hb hlt)
  · exact .inr ((compareRecords_eq_iff h ha hb).1 heq)

end

/-- **Sorting arranges records by their keys**, where the values of each key, null and missing ones
apart, are all numbers, or all booleans, or all texts, or all timestamps. -/
theorem sortRecords_arranged {keys : List SortKey} {records : List Json}
    (h : ∀ k ∈ keys, k.UniformOn records) :
    Arranged keys records (sortRecords keys records) := by
  have htrans : TransitiveOn keys (· ∈ records) :=
    transitiveOn_of_coherent fun k hk => (h k hk).coherentOn
  have hstable := sortRecords_stable fun a ha b hb c hc => htrans a b c ha hb hc
  refine ⟨hstable.perm, ?_, fun part hsub hlevel => hstable.stable part hsub ?_⟩
  · refine hstable.inOrder.imp_of_mem fun {a b} ha hb hab => ?_
    exact precedes_or_levelOn_of_inOrder h (hstable.perm.mem_iff.1 ha)
      (hstable.perm.mem_iff.1 hb) hab
  · refine hlevel.imp_of_mem fun {a b} ha hb hab => ?_
    rw [InOrder, (compareRecords_eq_iff h (hsub.subset ha) (hsub.subset hb)).2 hab]
    rfl

/-- Records of which two have the same instant in different offsets and one has no time. -/
def events : List Json :=
  [.obj [("at", .str "2023-12-31T23:00:00Z"), ("size", .int 2)],
    .obj [("at", .null), ("size", .float ⟨false, 1⟩)],
    .obj [("at", .str "2024-01-01T01:00:00+02:00"), ("size", .int 1)],
    .obj [("at", .str "2024-01-01T00:00:00Z")]]

theorem byTime_uniformOn : byTime.UniformOn events := by
  have hvalues : ∀ r ∈ events, Record.valueAt r "at" ≠ .null →
      ∃ s x, Record.valueAt r "at" = .str s ∧ Timestamp.parse? s = some x := by
    simp only [events, List.forall_mem_cons]
    exact ⟨fun _ => ⟨_, _, rfl, rfl⟩, fun hne => absurd rfl hne, fun _ => ⟨_, _, rfl, rfl⟩,
      fun _ => ⟨_, _, rfl, rfl⟩, List.forall_mem_nil _⟩
  refine .timestamps rfl ?_
  rintro v ⟨hne, r, hr, rfl⟩
  exact hvalues r hr hne

theorem bySize_uniformOn : bySize.UniformOn events := by
  have hvalues : ∀ r ∈ events, Record.valueAt r "size" ≠ .null →
      ∃ x, (Record.valueAt r "size").asNumber? = some x := by
    simp only [events, List.forall_mem_cons]
    exact ⟨fun _ => ⟨_, rfl⟩, fun _ => ⟨_, rfl⟩, fun _ => ⟨_, rfl⟩, fun hne => absurd rfl hne,
      List.forall_mem_nil _⟩
  refine .numbers ?_
  rintro v ⟨hne, r, hr, rfl⟩
  exact hvalues r hr hne

/-- The latest events come first, and of two at one instant the smaller one. -/
theorem sortRecords_arranged_events :
    (∀ k ∈ [byTime, bySize], k.UniformOn events) ∧
      Arranged [byTime, bySize] events (sortRecords [byTime, bySize] events) := by
  have hkeys : ∀ k ∈ [byTime, bySize], k.UniformOn events :=
    List.forall_mem_cons.2 ⟨byTime_uniformOn, List.forall_mem_singleton.2 bySize_uniformOn⟩
  exact ⟨hkeys, sortRecords_arranged hkeys⟩

end EntityGraph
