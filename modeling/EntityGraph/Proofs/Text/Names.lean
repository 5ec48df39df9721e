import EntityGraph.Name
import Mathlib.Computability.Language

/-!
The language of names. A name is valid if it is a word of the regular language
`[_a-zA-Z][_a-zA-Z0-9]*`, which is put together here from ranges of characters, and not from
classes of them.
-/

namespace EntityGraph.Name

open scoped Computability

/-- The words of one character from the first to the last. -/
def oneOf (first last : Char) : Language Char := {w | ∃ c, first ≤ c ∧ c ≤ last ∧ w = [c]}

/-- What a name starts with: `[_a-zA-Z]`. -/
def startClass : Language Char := oneOf '_' '_' + oneOf 'a' 'z' + oneOf 'A' 'Z'

/-- What a name goes on with: `[_a-zA-Z0-9]`. -/
def restClass : Language Char := startClass + oneOf '0' '9'

/-- The language of names: `[_a-zA-Z][_a-zA-Z0-9]*`. -/
def pattern : Language Char := startClass * restClass∗

variable {c : Char} {w : List Char}

/-! ### Single characters -/

theorem singleton_mem_oneOf {first last : Char} :
    [c] ∈ oneOf first last ↔ first ≤ c ∧ c ≤ last := by
  constructor
  · rintro ⟨d, hfirst, hlast, h⟩
    obtain rfl := List.singleton_inj.1 h
    exact ⟨hfirst, hlast⟩
  · exact fun h => ⟨c, h.1, h.2, rfl⟩

theorem exists_of_mem_startClass (h : w ∈ startClass) : ∃ c, w = [c] := by
  rcases h with (⟨c, -, -, rfl⟩ | ⟨c, -, -, rfl⟩) | ⟨c, -, -, rfl⟩ <;> exact ⟨c, rfl⟩

theorem exists_of_mem_restClass (h : w ∈ restClass) : ∃ c, w = [c] := by
  rcases h with h | ⟨c, -, -, rfl⟩
  · exact exists_of_mem_startClass h
  · exact ⟨c, rfl⟩

theorem isStart_iff : isStart c = true ↔ [c] ∈ startClass := by
  have hletter : c.isAlpha = (decide (c.val ≥ 'A'.val ∧ c.val ≤ 'Z'.val) ||
      (decide (c.val ≥ 'a'.val) && decide (c.val ≤ 'z'.val))) := rfl
  have hunderscore : c = '_' ↔ '_'.val ≤ c.val ∧ c.val ≤ '_'.val :=
    ⟨fun h => h ▸ ⟨Char.le_refl _, Char.le_refl _⟩, fun h => Char.le_antisymm h.2 h.1⟩
  simp only [startClass, Language.mem_add, singleton_mem_oneOf, isStart, hletter,
    hunderscore, Char.le_def, Bool.or_eq_true, Bool.and_eq_true, decide_eq_true_eq, ge_iff_le]
  tauto

theorem isRest_iff : isRest c = true ↔ [c] ∈ restClass := by
  rw [restClass, Language.mem_add, ← isStart_iff, singleton_mem_oneOf]
  simp only [isRest, isStart, Char.isAlphanum, Char.isDigit, Char.le_def, Bool.or_eq_true,
    Bool.and_eq_true, decide_eq_true_eq, ge_iff_le]
  tauto

/-! ### Words -/

theorem all_isRest_iff : w.all isRest = true ↔ w ∈ restClass∗ := by
  rw [List.all_eq_true, Language.mem_kstar]
  constructor
  · intro h
    refine ⟨w.map fun c => [c], by rw [← List.flatMap_def, List.flatMap_singleton'], fun u hu => ?_⟩
    obtain ⟨c, hc, rfl⟩ := List.mem_map.1 hu
    exact isRest_iff.1 (h c hc)
  · rintro ⟨us, rfl, hus⟩ c hc
    obtain ⟨u, hu, hc⟩ := List.mem_flatten.1 hc
    obtain ⟨d, rfl⟩ := exists_of_mem_restClass (hus u hu)
    obtain rfl := List.mem_singleton.1 hc
    exact isRest_iff.2 (hus _ hu)

/-- **The valid names** are the words of the language of names. -/
theorem valid_iff_mem_pattern {n : String} : Valid n = true ↔ n.toList ∈ pattern := by
  rw [Valid, pattern, Language.mem_mul]
  constructor
  · intro h
    cases hn : n.toList with
    | nil =>
      rw [hn] at h
      cases h
    | cons c cs =>
      rw [hn, ValidChars, Bool.and_eq_true] at h
      exact ⟨[c], isStart_iff.1 h.1, cs, all_isRest_iff.1 h.2, rfl⟩
  · rintro ⟨u, hu, cs, hcs, hn⟩
    obtain ⟨c, rfl⟩ := exists_of_mem_startClass hu
    rw [← hn, List.singleton_append, ValidChars, isStart_iff.2 hu, all_isRest_iff.2 hcs]
    rfl

end EntityGraph.Name
