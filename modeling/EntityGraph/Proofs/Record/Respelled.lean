import EntityGraph.Proofs.Record.Equality
import Mathlib.Data.List.GetD
import Mathlib.Data.Option.Defs

/-!
Respelled timestamps. One instant can be written with another offset, or with more or fewer digits
of its fraction. Two records that differ in nothing else, and only at some of their paths, have
alike values at every path. On a timestamp field the comparison cannot tell such values apart: not
at all where it asks for a draw, and in its order as long as the texts next to them are timestamps
as well. So the keys that sort such records put them in the same order.
-/

namespace EntityGraph

/-! ### Spellings of one instant -/

/-- Two texts are timestamps of one instant. -/
def Timestamp.SameInstant (s t : String) : Prop :=
  ∃ x y, parse? s = some x ∧ parse? t = some y ∧ x.nanos = y.nanos

/-- Two values are one, or two timestamps of one instant on a timestamp field. -/
inductive ValueKind.Respells : ValueKind → Json → Json → Prop
  | same {kind : ValueKind} (v : Json) : Respells kind v v
  | instant {s t : String} : Timestamp.SameInstant s t → Respells .timestamp (.str s) (.str t)

/-- A value that is a text is a timestamp. -/
def Json.Dated (v : Json) : Prop := ∀ s, v = .str s → Timestamp.isValid s = true

namespace Timestamp.SameInstant

variable {s t : String} {v : Json}

theorem symm (h : SameInstant s t) : SameInstant t s :=
  let ⟨x, y, hx, hy, hnanos⟩ := h
  ⟨y, x, hy, hx, hnanos.symm⟩

theorem dated (h : SameInstant s t) : (Json.str s).Dated := by
  obtain ⟨x, -, hx, -⟩ := h
  intro s' hs'
  obtain rfl := Json.str.inj hs'
  exact Option.isSome_iff_exists.2 ⟨x, hx⟩

/-- A draw with one spelling is a draw with the other. -/
theorem draw (h : SameInstant s t) (hdraw : ValueKind.timestamp.compare? (.str s) v = some .eq) :
    ValueKind.timestamp.compare? (.str t) v = some .eq := by
  obtain ⟨x, y, hx, hy, hnanos⟩ := h
  cases v with
  | str u =>
    have hsu : ValueKind.timestamp.compareTexts s u = .eq := Option.some.inj hdraw
    refine congrArg some ?_
    cases hz : parse? u with
    | none =>
      -- a text that is no timestamp is not equal to one
      rw [ValueKind.compareTexts_right hz] at hsu
      obtain rfl := Std.LawfulEqCmp.eq_of_compare hsu
      exact absurd (hx.symm.trans hz) (Option.some_ne_none x)
    | some z =>
      rw [ValueKind.compareTexts_timestamps hx hz] at hsu
      rw [ValueKind.compareTexts_timestamps hy hz, ← hnanos, hsu]
  | null | bool | int | float | arr | obj => exact nomatch hdraw

/-- Next to a timestamp, one spelling stands where the other does. -/
theorem compare? (h : SameInstant s t) (hv : v.Dated) :
    ValueKind.timestamp.compare? (.str t) v = ValueKind.timestamp.compare? (.str s) v := by
  obtain ⟨x, y, hx, hy, hnanos⟩ := h
  cases v with
  | str u =>
    obtain ⟨z, hz⟩ := Option.isSome_iff_exists.1 (hv u rfl)
    refine congrArg some ?_
    rw [ValueKind.compareTexts_timestamps hy hz, ValueKind.compareTexts_timestamps hx hz, hnanos]
  | null | bool | int | float | arr | obj => rfl

theorem equal_left (h : SameInstant s t) :
    ValueKind.timestamp.equal (.str t) v = ValueKind.timestamp.equal (.str s) v := by
  refine Bool.eq_iff_iff.2 ?_
  rw [ValueKind.equal_text_iff, ValueKind.equal_text_iff]
  exact ⟨h.symm.draw, h.draw⟩

theorem equal_right (h : SameInstant s t) :
    ValueKind.timestamp.equal v (.str t) = ValueKind.timestamp.equal v (.str s) := by
  have hclass : ∀ u : String, (Json.str u).class? ≠ none := fun u => nofun
  refine Bool.eq_iff_iff.2 ?_
  rw [ValueKind.equal_iff_of_class? _ (hclass t), ValueKind.equal_iff_of_class? _ (hclass s)]
  exact ⟨fun hdraw => ValueKind.draw_symm (h.symm.draw (ValueKind.draw_symm hdraw)),
    fun hdraw => ValueKind.draw_symm (h.draw (ValueKind.draw_symm hdraw))⟩

end Timestamp.SameInstant

namespace ValueKind.Respells

variable {kind : ValueKind} {v w v' w' : Json}

theorem dated (h : kind.Respells v w) (hv : v.Dated) : w.Dated := by
  cases h with
  | same => exact hv
  | instant h => exact h.symm.dated

/-- **Equality does not see how timestamps are spelled.** -/
theorem equal (hv : kind.Respells v v') (hw : kind.Respells w w') :
    kind.equal v' w' = kind.equal v w := by
  have hleft : kind.equal v' w' = kind.equal v w' := by
    cases hv with
    | same => rfl
    | instant h => exact h.equal_left
  cases hw with
  | same => exact hleft
  | instant h => exact hleft.trans h.equal_right

/-- **Nor does the order**, as long as the texts are timestamps. -/
theorem compare? (hv : kind.Respells v v') (hw : kind.Respells w w')
    (hdated : kind = .timestamp → v.Dated ∧ w.Dated) :
    kind.compare? v' w' = kind.compare? v w := by
  have hleft : kind.compare? v' w = kind.compare? v w := by
    cases hv with
    | same => rfl
    | instant h => exact h.compare? (hdated rfl).2
  cases hw with
  | same => exact hleft
  | instant h =>
    -- the second value is respelled beside the first one, which is a timestamp in both spellings
    have hright := h.compare? (hv.dated (hdated rfl).1)
    rw [compare?_swap, hright, ← compare?_swap]
    exact hleft

end ValueKind.Respells

/-! ### Respelled records -/

/-- The value of a field is respelled: itself, or elements of it if it is a list. -/
inductive Json.RespelledField : Json → Json → Prop
  | value {v w : Json} : ValueKind.timestamp.Respells v w → RespelledField v w
  | elements {vs ws : List Json} :
      List.Forall₂ ValueKind.timestamp.Respells vs ws → RespelledField (.arr vs) (.arr ws)

mutual

/-- **A record is respelled at some of its paths**, which are given by their keys. -/
inductive Json.RespelledAt : (List String → Prop) → Json → Json → Prop
  | same {P : List String → Prop} (v : Json) : RespelledAt P v v
  | here {P : List String → Prop} {v w : Json} : P [] → v.RespelledField w → RespelledAt P v w
  | inside {P : List String → Prop} {fs gs : List (String × Json)} :
      RespelledFields P fs gs → RespelledAt P (.obj fs) (.obj gs)

/-- The fields of an object are respelled. -/
inductive Json.RespelledFields :
    (List String → Prop) → List (String × Json) → List (String × Json) → Prop
  | nil {P : List String → Prop} : RespelledFields P [] []
  | cons {P : List String → Prop} {k : String} {v w : Json} {fs gs : List (String × Json)} :
      RespelledAt (fun ks => P (k :: ks)) v w → RespelledFields P fs gs →
      RespelledFields P ((k, v) :: fs) ((k, w) :: gs)

end

namespace Json

variable {P : List String → Prop} {v w : Json} {fs gs : List (String × Json)}

theorem RespelledFields.get? (h : RespelledFields P fs gs) (k : String) :
    Option.Rel (RespelledAt fun ks => P (k :: ks)) (Fields.get? fs k) (Fields.get? gs k) := by
  induction fs generalizing gs with
  | nil =>
    cases h
    exact .none
  | cons f fs ih =>
    cases h with
    | cons hv hrest =>
      rename_i k' v w gs
      rw [Fields.get?_cons, Fields.get?_cons]
      by_cases hk : k' = k
      · subst hk
        rw [if_pos rfl, if_pos rfl]
        exact .some hv
      · rw [if_neg hk, if_neg hk]
        exact ih hrest

mutual

/-- Nothing is respelled inside a value where no path leads on. -/
theorem RespelledAt.eq_or_here {P : List String → Prop} {v w : Json} (h : RespelledAt P v w)
    (hP : ∀ k ks, ¬P (k :: ks)) : v = w ∨ P [] ∧ v.RespelledField w :=
  match h with
  | .same _ => .inl rfl
  | .here hhere hfield => .inr ⟨hhere, hfield⟩
  | .inside hfields => .inl (congrArg Json.obj (hfields.eq hP))

theorem RespelledFields.eq {P : List String → Prop} {fs gs : List (String × Json)}
    (h : RespelledFields P fs gs) (hP : ∀ k ks, ¬P (k :: ks)) : fs = gs :=
  match h with
  | .nil => rfl
  | .cons (k := k) hv hrest => by
    have hvalue := (hv.eq_or_here fun k' ks => hP k (k' :: ks)).resolve_right
      fun hhere => hP k [] hhere.1
    rw [hvalue, hrest.eq hP]

end

/-! ### Alike values -/

section

variable {P : List String → Prop} {v w v' w' : Json} {kind : ValueKind}

theorem rel_self (P : List String → Prop) (o : Option Json) : Option.Rel (RespelledAt P) o o := by
  cases o with
  | none => exact .none
  | some v => exact .some (.same v)

theorem RespelledAt.get? (h : RespelledAt P v w) (k : String) :
    Option.Rel (RespelledAt fun ks => P (k :: ks)) (v.get? k) (w.get? k) := by
  cases h with
  | same => exact rel_self _ _
  | here _ hfield =>
    -- what is respelled itself has no fields
    cases hfield with
    | value hvalue =>
      cases hvalue with
      | same => exact rel_self _ _
      | instant => exact .none
    | elements => exact .none
  | inside hfields => exact hfields.get? k

/-- Respelled records have respelled values behind the same keys. -/
theorem RespelledAt.follow? (h : RespelledAt P v w) (ks : List String) :
    Option.Rel (RespelledAt fun ks' => P (ks ++ ks')) (Record.follow? ks v)
      (Record.follow? ks w) := by
  induction ks generalizing P v w with
  | nil => exact .some h
  | cons k ks ih =>
    have hrel := h.get? k
    unfold Record.follow?
    generalize v.get? k = a, w.get? k = b at hrel
    cases hrel with
    | none => exact .none
    | some hvalue => exact ih hvalue

/-- **Respelled records have respelled values at every path.** -/
theorem RespelledAt.valueAt (h : RespelledAt P v w) (path : String) :
    RespelledAt (fun ks => P (Record.pathKeys path ++ ks)) (Record.valueAt v path)
      (Record.valueAt w path) := by
  have hrel := h.follow? (Record.pathKeys path)
  unfold Record.valueAt Record.lookup?
  generalize Record.follow? (Record.pathKeys path) v = a,
    Record.follow? (Record.pathKeys path) w = b at hrel
  cases hrel with
  | none => exact .same .null
  | some hvalue => exact hvalue

/-- A respelled value is another spelling, or else the comparison does not see it at all. -/
theorem RespelledAt.respells_or (h : RespelledAt P v w) (hP : P [] → kind = .timestamp) :
    kind.Respells v w ∨ v.class? = none ∧ w.class? = none := by
  cases h with
  | same => exact .inl (.same v)
  | here hhere hfield =>
    obtain rfl := hP hhere
    cases hfield with
    | value hvalue => exact .inl hvalue
    | elements => exact .inr ⟨rfl, rfl⟩
  | inside => exact .inr ⟨rfl, rfl⟩

theorem RespelledAt.isNull_eq (h : RespelledAt P v w) : w.isNull = v.isNull := by
  cases h with
  | here _ hfield =>
    cases hfield with
    | value hvalue => cases hvalue <;> rfl
    | elements => rfl
  | same | inside => rfl

/-- **Respelled values compare like those they were**, where the texts are timestamps. -/
theorem RespelledAt.compare? (hv : RespelledAt P v v') (hw : RespelledAt P w w')
    (hP : P [] → kind = .timestamp ∧ v.Dated ∧ w.Dated) :
    kind.compare? v' w' = kind.compare? v w := by
  have hnone : ∀ {a b : Json}, a.class? = none ∨ b.class? = none → kind.compare? a b = none := by
    rintro a b (h | h)
    · exact ValueKind.compare?_eq_none fun _ => h
    · exact ValueKind.compare?_eq_none fun hclass => hclass.trans h
  -- only values that a comparison sees matter, and any kind will do that admits the spellings
  have hseen : ∀ kind' : ValueKind, (P [] → kind' = .timestamp) →
      (kind'.Respells v v' → kind'.Respells w w' → kind.compare? v' w' = kind.compare? v w) →
      kind.compare? v' w' = kind.compare? v w := by
    intro kind' hkind hcompare
    rcases hv.respells_or hkind with hv | ⟨hv, hv'⟩
    · rcases hw.respells_or hkind with hw | ⟨hw, hw'⟩
      · exact hcompare hv hw
      · rw [hnone (.inr hw'), hnone (.inr hw)]
    · rw [hnone (.inl hv'), hnone (.inl hv)]
  by_cases h : P []
  · obtain ⟨rfl, hvd, hwd⟩ := hP h
    exact hseen .timestamp (fun _ => rfl) fun hv hw => hv.compare? hw fun _ => ⟨hvd, hwd⟩
  · refine hseen .plain (fun hhere => absurd hhere h) fun hv hw => ?_
    cases hv
    cases hw
    rfl

end

end Json

/-! ### Sorting respelled records -/

/-- The places of records in the order that sort keys give them. -/
def sortOrder (keys : List SortKey) (records : List Json) : List Nat :=
  sortByInsertion (fun i j => compareRecords keys (records.getD i .null) (records.getD j .null))
    (List.range records.length)

/-- Sorting takes records from their places in this order. -/
theorem sortRecords_eq_map (keys : List SortKey) (records : List Json) :
    sortRecords keys records = (sortOrder keys records).map fun i => records.getD i .null := by
  have hrecords : (List.range records.length).map (fun i => records.getD i .null) = records := by
    refine List.ext_getElem (by simp) fun i hi hi' => ?_
    simp [List.getD_eq_getElem?_getD, hi']
  rw [sortOrder, map_sortByInsertion (fun i => records.getD i .null) (compareRecords keys),
    hrecords, sortRecords]

/-- A sort key looks at no respelled value, or at timestamps only. -/
def SortKey.Tolerates (k : SortKey) (P : List String → Prop) (records : List Json) : Prop :=
  P (Record.pathKeys k.field) →
    k.kind = .timestamp ∧ ∀ r ∈ records, (Record.valueAt r k.field).Dated

section

variable {P : List String → Prop} {keys : List SortKey} {k : SortKey}
  {records respelled : List Json} {a b a' b' : Json}

theorem SortKey.value?_eq (k : SortKey) (r : Json) :
    k.value? r = if (Record.valueAt r k.field).isNull then none
      else some (Record.valueAt r k.field) := by
  unfold SortKey.value? Record.valueAt
  cases Record.lookup? r k.field with
  | none => rfl
  | some v => cases v <;> rfl

theorem SortKey.compare_respelled (ha : a.RespelledAt P a') (hb : b.RespelledAt P b')
    (h : k.Tolerates P [a, b]) : k.compare a' b' = k.compare a b := by
  have hva := ha.valueAt k.field
  have hvb := hb.valueAt k.field
  have hcompare : k.kind.compare? (Record.valueAt a' k.field) (Record.valueAt b' k.field) =
      k.kind.compare? (Record.valueAt a k.field) (Record.valueAt b k.field) := by
    refine hva.compare? hvb fun hP => ?_
    rw [List.append_nil] at hP
    obtain ⟨hkind, hdated⟩ := h hP
    exact ⟨hkind, hdated a List.mem_cons_self, hdated b (List.mem_cons_of_mem _ List.mem_cons_self)⟩
  have horder : ascendingOrder k.kind (k.value? a') (k.value? b') =
      ascendingOrder k.kind (k.value? a) (k.value? b) := by
    simp only [value?_eq, hva.isNull_eq, hvb.isNull_eq]
    split <;> split <;> simp [ascendingOrder, hcompare]
  simp only [compare, horder]

theorem compareRecords_respelled (ha : a.RespelledAt P a') (hb : b.RespelledAt P b')
    (h : ∀ k ∈ keys, k.Tolerates P [a, b]) :
    compareRecords keys a' b' = compareRecords keys a b := by
  induction keys with
  | nil => rfl
  | cons k ks ih =>
    obtain ⟨hk, hks⟩ := List.forall_mem_cons.1 h
    rw [compareRecords, compareRecords, SortKey.compare_respelled ha hb hk, ih hks]

theorem Record.valueAt_null (path : String) : Record.valueAt .null path = .null := by
  unfold valueAt lookup?
  cases pathKeys path <;> rfl

/-- What a key tolerates in records it tolerates in those that stand in two places. -/
theorem SortKey.Tolerates.pair (h : k.Tolerates P records) (i j : Nat) :
    k.Tolerates P [records.getD i .null, records.getD j .null] := by
  intro hP
  obtain ⟨hkind, hdated⟩ := h hP
  have hplace : ∀ i, (Record.valueAt (records.getD i .null) k.field).Dated := by
    intro i
    by_cases hi : i < records.length
    · rw [List.getD_eq_getElem _ _ hi]
      exact hdated _ (List.getElem_mem hi)
    · -- beyond the last record there is nothing to see
      rw [List.getD_eq_default _ _ (Nat.le_of_not_lt hi), Record.valueAt_null]
      exact nofun
  refine ⟨hkind, fun r hr => ?_⟩
  rcases List.mem_pair.1 hr with rfl | rfl
  · exact hplace i
  · exact hplace j

theorem Json.respelledAt_getD (h : List.Forall₂ (RespelledAt P) records respelled) (i : Nat) :
    (records.getD i .null).RespelledAt P (respelled.getD i .null) := by
  induction h generalizing i with
  | nil => exact .same .null
  | cons hr _ ih =>
    cases i with
    | zero => exact hr
    | succ i => exact ih i

/-- **Respelled records are sorted as they were.** -/
theorem sortOrder_respelled (hrecords : List.Forall₂ (Json.RespelledAt P) records respelled)
    (h : ∀ k ∈ keys, k.Tolerates P records) :
    sortOrder keys respelled = sortOrder keys records := by
  have hcompare : ∀ i j,
      compareRecords keys (respelled.getD i .null) (respelled.getD j .null) =
        compareRecords keys (records.getD i .null) (records.getD j .null) := fun i j =>
    compareRecords_respelled (Json.respelledAt_getD hrecords i) (Json.respelledAt_getD hrecords j)
      fun k hk => (h k hk).pair i j
  simp only [sortOrder, hcompare, hrecords.length_eq]

end

end EntityGraph
