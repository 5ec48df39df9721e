import EntityGraph.Proofs.Filter.Meaning
import EntityGraph.Proofs.Number.Rounding

/-!
Integers among the values of records. Numbers compare in the precision of a double, so integers
compare in their own order as long as they have doubles of their own. Two that share a double count
as equal. This does not befall integers of at most 53 significant bits, nor any two that are more
than 2048 apart.
-/

namespace EntityGraph

/-- The doubles of two integers tell them apart. -/
def Binary64.KeepsApart (a b : ℤ) : Prop := ofInt a = ofInt b → a = b

namespace Json

variable {a b n : ℤ}

/-- The magnitude of a 64-bit integer is a double of 53 bits up to a factor of `2 ^ 11`. -/
theorem Fits.natAbs_lt (h : Fits n) : n.natAbs < Binary64.twoTo (Binary64.precision + 11) := by
  have hlimit : Binary64.twoTo (Binary64.precision + 11) = 18446744073709551616 := rfl
  unfold Fits signedLimit unsignedLimit at h
  omega

/-- 64-bit integers that are more than `2 ^ 11` apart have different doubles. -/
theorem Fits.keepsApart (ha : Fits a) (hb : Fits b) (h : 2048 < (a - b).natAbs) :
    Binary64.KeepsApart a b := by
  intro heq
  have hnear := Binary64.natAbs_sub_le_of_ofInt_eq ha.natAbs_lt hb.natAbs_lt heq
  have hlimit : Binary64.twoTo 11 = 2048 := rfl
  omega

end Json

namespace ValueKind

variable (kind : ValueKind) (a b : ℤ)

theorem compare?_int :
    kind.compare? (.int a) (.int b) =
      some (if Binary64.ofInt a = Binary64.ofInt b then .eq else compare a b) :=
  congrArg some (Binary64.compare_ofInt a b)

variable {a b} in
/-- Integers that share a double do not differ. -/
theorem compare?_int_of_not_keepsApart (h : ¬ Binary64.KeepsApart a b) :
    kind.compare? (.int a) (.int b) = some .eq := by
  rw [compare?_int, if_pos (Classical.not_imp.1 h).1]

variable {a b} in
theorem compare?_int_of_keepsApart (h : Binary64.KeepsApart a b) :
    kind.compare? (.int a) (.int b) = some (compare a b) := by
  rw [compare?_int]
  split_ifs with heq
  · obtain rfl := h heq
    exact congrArg some Std.compare_self.symm
  · rfl

theorem compare?_int_eq_iff :
    kind.compare? (.int a) (.int b) = some (compare a b) ↔ Binary64.KeepsApart a b := by
  refine ⟨fun h heq => ?_, kind.compare?_int_of_keepsApart⟩
  rw [compare?_int, if_pos heq, Option.some.injEq] at h
  exact Std.LawfulEqCmp.eq_of_compare h.symm

theorem equal_int_iff :
    kind.equal (.int a) (.int b) = true ↔ a = b ∨ ¬ Binary64.KeepsApart a b := by
  rw [equal, Json.same, Bool.or_eq_true, beq_iff_eq, beq_iff_eq]
  by_cases h : Binary64.KeepsApart a b
  · rw [kind.compare?_int_of_keepsApart h, Option.some.injEq]
    simp only [h, not_true, or_false]
    exact or_iff_left_of_imp Std.LawfulEqCmp.eq_of_compare
  · simp [kind.compare?_int_of_not_keepsApart h, h]

theorem compare?_int_eq_gt_iff :
    kind.compare? (.int a) (.int b) = some .gt ↔ b < a ∧ Binary64.KeepsApart a b := by
  by_cases h : Binary64.KeepsApart a b
  · simp [kind.compare?_int_of_keepsApart h, h, Std.compare_eq_gt]
  · simp [kind.compare?_int_of_not_keepsApart h, h]

end ValueKind

/-- **Integers compare in their own order, unless they share a double.** This is so on fields of
either kind, and just for integers that their doubles tell apart; others count as equal. Then a
record that holds `a` passes `eq: b` when the two are one integer or share a double, and `gt: b`
when `a` is the greater one and they do not. Doubles tell apart all integers of at most 53
significant bits, and all 64-bit integers that are more than 2048 apart. -/
theorem integers_compare_by_double (kind : ValueKind) (a b : ℤ) :
    (kind.compare? (.int a) (.int b) = some (compare a b) ↔ Binary64.KeepsApart a b) ∧
    (¬ Binary64.KeepsApart a b → kind.compare? (.int a) (.int b) = some .eq) ∧
    (∀ record field, Record.lookup? record field = some (.int a) →
      ((Filter.field field (.eq (.int b)) kind).passes record = true ↔
        a = b ∨ ¬ Binary64.KeepsApart a b) ∧
      ((Filter.field field (.gt (.int b)) kind).passes record = true ↔
        b < a ∧ Binary64.KeepsApart a b)) ∧
    (Binary64.Exact a → Binary64.Exact b → Binary64.KeepsApart a b) ∧
    (Json.Fits a → Json.Fits b → 2048 < (a - b).natAbs → Binary64.KeepsApart a b) := by
  refine ⟨kind.compare?_int_eq_iff a b, kind.compare?_int_of_not_keepsApart,
    fun record field hfield => ?_, fun ha hb => ha.eq_of_ofInt_eq hb,
    fun ha hb => ha.keepsApart hb⟩
  have hvalue : Record.valueAt record field = .int a := by rw [Record.valueAt, hfield]; rfl
  rw [Filter.passes, Filter.passes, hvalue]
  refine ⟨kind.equal_int_iff a b, ?_⟩
  rw [← kind.compare?_int_eq_gt_iff a b]
  simp [Condition.holds, Json.anyElement, Condition.ordered_iff]

/-- A serial number beyond `2 ^ 53` passes for the one before it, but not for the one before that.
The even serial numbers have doubles of their own, and the largest 64-bit integers are told apart
when they are far enough from each other. -/
theorem integers_compare_by_double_serial :
    let record : Json := .obj [("_id", .str "a"), ("serial", .int 9007199254740993)]
    Record.lookup? record "serial" = some (.int 9007199254740993) ∧
    ValueKind.plain.compare? (.int 9007199254740993) (.int 9007199254740992) = some .eq ∧
    (Filter.field "serial" (.eq (.int 9007199254740992)) .plain).passes record = true ∧
    ¬ (Filter.field "serial" (.gt (.int 9007199254740992)) .plain).passes record = true ∧
    (Filter.field "serial" (.gt (.int 9007199254740991)) .plain).passes record = true ∧
    Binary64.KeepsApart 9007199254740994 9007199254740992 ∧
    Binary64.KeepsApart 18446744073709551615 18446744073709549566 := by
  intro record
  have hshare : ¬ Binary64.KeepsApart 9007199254740993 9007199254740992 := fun h =>
    absurd (h (by decide +kernel)) (by decide)
  have hapart : Binary64.KeepsApart 9007199254740993 9007199254740991 := fun h =>
    absurd h (by decide +kernel)
  have hlookup : Record.lookup? record "serial" = some (.int 9007199254740993) :=
    Record.lookup?_of_plain (by decide) record
  obtain ⟨-, hequal, hrecord, -, -⟩ :=
    integers_compare_by_double .plain 9007199254740993 9007199254740992
  obtain ⟨heq, hgt⟩ := hrecord record "serial" hlookup
  obtain ⟨-, -, hbelow, -, -⟩ :=
    integers_compare_by_double .plain 9007199254740993 9007199254740991
  obtain ⟨-, -, -, hexact, -⟩ :=
    integers_compare_by_double .plain 9007199254740994 9007199254740992
  obtain ⟨-, -, -, -, hfar⟩ :=
    integers_compare_by_double .plain 18446744073709551615 18446744073709549566
  exact ⟨hlookup, hequal hshare, heq.2 (.inr hshare), fun h => hshare (hgt.1 h).2,
    (hbelow record "serial" hlookup).2.2 ⟨by decide, hapart⟩,
    hexact ⟨4503599627370497, 1, by decide, rfl⟩ ⟨1, 53, by decide, rfl⟩,
    hfar (by decide) (by decide) (by decide)⟩

end EntityGraph
