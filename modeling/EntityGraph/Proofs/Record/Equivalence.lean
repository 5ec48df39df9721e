import EntityGraph.Proofs.Record.Equality
import EntityGraph.Proofs.Value.Same

/-!
Equality of values is an equivalence. A comparison sees no more of a number than its double, and no
more of a timestamp on a timestamp field than its instant: this is the mark that a value bears. Two
values draw when they bear one mark, and they are equal when they draw, or bear no mark and are the
same JSON. So a chain of equal values never leads from values with a mark to values without one,
although equality is the union of two relations, of which only one tells integers from floats.
-/

namespace EntityGraph

/-! ### Marks -/

/-- What a comparison sees of a value. -/
inductive Mark where
  | number (value : Int)
  | boolean (b : Bool)
  | instant (nanos : Int)
  | text (s : String)
deriving DecidableEq, Repr

/-- The class of the values that bear a mark. -/
def Mark.valueClass : Mark → ValueClass
  | .number _ => .number
  | .boolean _ => .boolean
  | .instant _ | .text _ => .text

namespace ValueKind

/-- The mark of a text: on a timestamp field the instant, if it is a timestamp. -/
def textMark (kind : ValueKind) (s : String) : Mark :=
  match kind with
  | .plain => .text s
  | .timestamp =>
    match Timestamp.parse? s with
    | some x => .instant x.nanos
    | none => .text s

/-- The mark of a value. Null, lists and objects bear none. -/
def mark? (kind : ValueKind) : Json → Option Mark
  | .int n => some (.number (Binary64.ofInt n).value)
  | .float x => some (.number x.value)
  | .bool b => some (.boolean b)
  | .str s => some (kind.textMark s)
  | .null | .arr _ | .obj _ => none

variable {kind : ValueKind} {u v w : Json} {s t : String} {m : Mark}

theorem valueClass_textMark (s : String) : (kind.textMark s).valueClass = .text := by
  unfold textMark
  split
  · rfl
  · split <;> rfl

/-- Values of some class bear a mark of that class. -/
theorem class?_eq_map_mark? (kind : ValueKind) (v : Json) :
    v.class? = (kind.mark? v).map Mark.valueClass := by
  cases v with
  | str s => exact congrArg some (valueClass_textMark s).symm
  | null | bool | int | float | arr | obj => rfl

theorem mark?_of_number {x : Binary64} (h : v.asNumber? = some x) :
    kind.mark? v = some (.number x.value) := by
  cases v with
  | int | float =>
    obtain rfl := Option.some.inj h
    rfl
  | null | bool | str | arr | obj => cases h

/-- A timestamp is not the same text as one that is none. -/
theorem ne_of_parse? {x : Timestamp} (hs : Timestamp.parse? s = some x)
    (ht : Timestamp.parse? t = none) : s ≠ t := by
  rintro rfl
  exact Option.some_ne_none x (hs.symm.trans ht)

/-- Texts draw when they bear one mark. A timestamp and another text bear different ones, and they
do not draw either, since they are different texts. -/
theorem compareTexts_eq_iff : kind.compareTexts s t = .eq ↔ kind.textMark s = kind.textMark t := by
  cases kind with
  | plain => simp [compareTexts, textMark]
  | timestamp =>
    cases hs : Timestamp.parse? s with
    | none =>
      rw [compareTexts_left hs, Std.compare_eq_iff_eq]
      cases ht : Timestamp.parse? t with
      | none => simp [textMark, hs, ht]
      | some y =>
        have hne : s ≠ t := (ne_of_parse? ht hs).symm
        simp [textMark, hs, ht, hne]
    | some x =>
      cases ht : Timestamp.parse? t with
      | none =>
        have hne : s ≠ t := ne_of_parse? hs ht
        rw [compareTexts_right ht, Std.compare_eq_iff_eq]
        simp [textMark, hs, ht, hne]
      | some y =>
        rw [compareTexts_timestamps hs ht, Std.compare_eq_iff_eq]
        simp [textMark, hs, ht]

/-- **Values draw when they bear one mark.** -/
theorem compare?_eq_iff :
    kind.compare? v w = some .eq ↔ ∃ m, kind.mark? v = some m ∧ kind.mark? w = some m := by
  by_cases hclass : v.class? = w.class? ∧ v.class? ≠ none
  · obtain ⟨hvw, hne⟩ := hclass
    obtain ⟨c, hc⟩ := Option.ne_none_iff_exists'.1 hne
    cases c with
    | number =>
      obtain ⟨x, hx⟩ := Json.class?_eq_number_iff.1 hc
      obtain ⟨y, hy⟩ := Json.class?_eq_number_iff.1 (hvw.symm.trans hc)
      rw [compare?_of_numbers hx hy, mark?_of_number hx, mark?_of_number hy]
      simpa [Binary64.compare] using eq_comm
    | boolean =>
      obtain ⟨a, rfl⟩ := Json.class?_eq_boolean_iff.1 hc
      obtain ⟨b, rfl⟩ := Json.class?_eq_boolean_iff.1 (hvw.symm.trans hc)
      simpa [compare?, mark?] using eq_comm
    | text =>
      obtain ⟨s, rfl⟩ := Json.class?_eq_text_iff.1 hc
      obtain ⟨t, rfl⟩ := Json.class?_eq_text_iff.1 (hvw.symm.trans hc)
      simpa [compare?, mark?, compareTexts_eq_iff] using eq_comm
  · -- values of two classes, or of none, do not compare, and they share no mark
    have hnone : kind.compare? v w = none := by
      apply compare?_eq_none
      intro hvw
      by_contra hne
      exact hclass ⟨hvw, hne⟩
    have hmarks : ¬ ∃ m, kind.mark? v = some m ∧ kind.mark? w = some m := by
      rintro ⟨m, hv, hw⟩
      apply hclass
      simp [class?_eq_map_mark? kind, hv, hw]
    simp [hnone, hmarks]

/-! ### Equality -/

/-- **What equality is.** Values are equal when they bear one mark, or bear none and are the same
JSON. -/
theorem equal_iff :
    kind.equal v w = true ↔
      (∃ m, kind.mark? v = some m ∧ kind.mark? w = some m) ∨
        kind.mark? v = none ∧ kind.mark? w = none ∧ v.same w = true := by
  cases hw : kind.mark? w with
  | some m =>
    have hclass : w.class? ≠ none := by simp [class?_eq_map_mark? kind, hw]
    rw [kind.equal_iff_of_class? hclass, compare?_eq_iff, hw]
    simp
  | none =>
    have hdraw : kind.compare? v w ≠ some .eq := by simp [compare?_eq_iff, hw]
    have hequal : kind.equal v w = v.same w := by simp [equal, hdraw]
    -- a value that is the same JSON as one without a mark bears none either
    have hmark : v.same w = true → kind.mark? v = none := by
      cases w with
      | null | arr | obj => cases v <;> simp [Json.same, mark?]
      | bool | int | float | str => cases hw
    simpa [hequal] using hmark

theorem equal_self (hv : v.Distinct) : kind.equal v v = true := by
  simp [equal, Json.same_self v hv]

theorem equal_symm (hv : v.Distinct) (hw : w.Distinct) (h : kind.equal v w = true) :
    kind.equal w v = true := by
  rw [equal_iff] at h ⊢
  rcases h with ⟨m, hmv, hmw⟩ | ⟨hnv, hnw, hsame⟩
  · exact .inl ⟨m, hmw, hmv⟩
  · exact .inr ⟨hnw, hnv, Json.same_symm hv hw hsame⟩

/-- A chain does not change from values with a mark to values without one. -/
theorem equal_trans (huv : kind.equal u v = true) (hvw : kind.equal v w = true) :
    kind.equal u w = true := by
  rw [equal_iff] at huv hvw ⊢
  rcases huv with ⟨m, hu, hv⟩ | ⟨hu, hv, huv⟩
  · rcases hvw with ⟨m', hv', hw⟩ | ⟨hv', -, -⟩
    · obtain rfl : m = m' := Option.some.inj (hv.symm.trans hv')
      exact .inl ⟨m, hu, hw⟩
    · exact absurd (hv.symm.trans hv') (Option.some_ne_none m)
  · rcases hvw with ⟨m', hv', -⟩ | ⟨-, hw, hvw⟩
    · exact absurd (hv'.symm.trans hv) (Option.some_ne_none m')
    · exact .inr ⟨hu, hw, Json.same_trans huv hvw⟩

/-- **Equality is an equivalence** on the values in which no object repeats a key, whichever way
texts compare. Values that bear a mark equal those with the same mark: numbers of either class with
one double, timestamps of one instant. Values without one equal what is the same JSON, in which
numbers of two classes differ at any depth. -/
theorem equality_equivalence (kind : ValueKind) :
    Equivalence (fun v w : {v : Json // v.Distinct} => kind.equal v.1 w.1 = true) ∧
    ∀ v w, kind.equal v w = true ↔
      (∃ m, kind.mark? v = some m ∧ kind.mark? w = some m) ∨
        kind.mark? v = none ∧ kind.mark? w = none ∧ v.same w = true := by
  refine ⟨⟨?_, ?_, ?_⟩, fun v w => equal_iff⟩
  · rintro ⟨v, hv⟩
    exact equal_self hv
  · rintro ⟨v, hv⟩ ⟨w, hw⟩ h
    exact equal_symm hv hw h
  · intro u v w huv hvw
    exact equal_trans huv hvw

/-- Negative zero equals zero and the integer zero, but a list of zeros is no list of integers. -/
theorem equality_equivalence_zero :
    let negative : Json := .float ⟨true, 0⟩
    let zero : Json := .float ⟨false, 0⟩
    timestamp.equal negative zero = true ∧ timestamp.equal zero (.int 0) = true ∧
      timestamp.equal negative (.int 0) = true ∧
      timestamp.equal (.arr [negative, zero]) (.arr [zero, negative]) = true ∧
      timestamp.equal (.arr [zero]) (.arr [.int 0]) = false := by
  intro negative zero
  have hnegative : timestamp.equal negative zero = true := by decide
  have hzero : timestamp.equal zero (.int 0) = true := by decide +kernel
  obtain ⟨hequiv, hmarks⟩ := equality_equivalence .timestamp
  have hchain : timestamp.equal negative (.int 0) = true :=
    @Equivalence.trans _ _ hequiv ⟨negative, trivial⟩ ⟨zero, trivial⟩ ⟨.int 0, trivial⟩
      hnegative hzero
  have hlists : timestamp.equal (.arr [negative, zero]) (.arr [zero, negative]) = true :=
    (hmarks _ _).2 (.inr ⟨rfl, rfl, by decide⟩)
  exact ⟨hnegative, hzero, hchain, hlists, by decide⟩

end ValueKind

end EntityGraph
