import EntityGraph.Number.Binary64
import Mathlib.Data.Int.Notation
import Mathlib.Data.Nat.Notation
import Mathlib.Tactic.SplitIfs

/-!
Rounding whole numbers of units to doubles. Rounding keeps the order, leaves alone what a double
holds exactly, and goes no further than half of the gap between two doubles. So integers stand to
each other as their doubles do, except that some integers beyond `2 ^ 53` have one double, and none
of these are further apart than a gap.
-/

namespace EntityGraph.Binary64

theorem twoTo_add (m n : ℕ) : twoTo (m + n) = twoTo m * twoTo n := Nat.pow_add 2 m n

theorem twoTo_le_twoTo {m n : ℕ} (h : m ≤ n) : twoTo m ≤ twoTo n :=
  Nat.pow_le_pow_right (by decide) h

theorem twoTo_dvd_twoTo {m n : ℕ} (h : m ≤ n) : twoTo m ∣ twoTo n := Nat.pow_dvd_pow 2 h

/-! ### Quotients -/

section

variable {m n k den : ℕ}

/-- A quotient is rounded down or up, and not past the middle. -/
theorem roundQuotient_cases (num den : ℕ) :
    roundQuotient num den = num / den ∧ 2 * (num % den) ≤ den ∨
      roundQuotient num den = num / den + 1 ∧ den ≤ 2 * (num % den) := by
  unfold roundQuotient
  dsimp only
  split_ifs <;> omega

theorem roundQuotient_mul (hden : 0 < den) (k : ℕ) : roundQuotient (k * den) den = k := by
  have hdiv : k * den / den = k := Nat.mul_div_cancel k hden
  have hmod : k * den % den = 0 := Nat.mul_mod_left k den
  obtain ⟨hround, -⟩ | ⟨-, hup⟩ := roundQuotient_cases (k * den) den
  · exact hround.trans hdiv
  · omega

theorem roundQuotient_mono (h : m ≤ n) :
    roundQuotient m den ≤ roundQuotient n den := by
  obtain rfl | hlt := Nat.eq_or_lt_of_le h
  · exact Nat.le_refl _
  have hquot : m / den ≤ n / den := Nat.div_le_div_right h
  have hm := Nat.div_add_mod m den
  have hn := Nat.div_add_mod n den
  obtain hq | hq := Nat.eq_or_lt_of_le hquot
  · -- in one interval, the remainders are in order
    have hrem : m % den < n % den := by
      rw [hq] at hm
      omega
    obtain ⟨hrm, -⟩ | ⟨hrm, hup⟩ := roundQuotient_cases m den <;>
      obtain ⟨hrn, hdown⟩ | ⟨hrn, -⟩ := roundQuotient_cases n den <;> omega
  · obtain ⟨hrm, -⟩ | ⟨hrm, -⟩ := roundQuotient_cases m den <;>
      obtain ⟨hrn, -⟩ | ⟨hrn, -⟩ := roundQuotient_cases n den <;> omega

theorem roundQuotient_le (hden : 0 < den) (h : m ≤ k * den) : roundQuotient m den ≤ k := by
  calc roundQuotient m den ≤ roundQuotient (k * den) den := roundQuotient_mono h
    _ = k := roundQuotient_mul hden k

theorem le_roundQuotient (hden : 0 < den) (h : k * den ≤ m) : k ≤ roundQuotient m den := by
  calc k = roundQuotient (k * den) den := (roundQuotient_mul hden k).symm
    _ ≤ roundQuotient m den := roundQuotient_mono h

/-- Rounding goes to one of the two neighbours, and no further than halfway. -/
theorem roundQuotient_near (hden : 0 < den) (num : ℕ) :
    2 * (roundQuotient num den * den) ≤ 2 * num + den ∧
      2 * num ≤ 2 * (roundQuotient num den * den) + den := by
  have hnum := Nat.div_add_mod' num den
  have hrem := Nat.mod_lt num hden
  obtain ⟨hround, hdown⟩ | ⟨hround, hup⟩ := roundQuotient_cases num den
  · rw [hround]
    omega
  · rw [hround, Nat.add_one_mul (num / den)]
    omega

end

/-! ### Magnitudes -/

/-- The gap between the doubles around a magnitude. -/
def gap (units : ℕ) : ℕ := twoTo (spareBits units)

theorem gap_pos (u : ℕ) : 0 < gap u := twoTo_pos _

theorem roundUnits_one (u : ℕ) : roundUnits u 1 = roundQuotient u (gap u) * gap u := by
  simp only [roundUnits, gap, Nat.div_one, Nat.one_mul]

section

variable {u v c : ℕ}

/-- Rounding up does not pass a multiple of the gap. -/
theorem roundUnits_le (h : u ≤ c) (hc : gap u ∣ c) : roundUnits u 1 ≤ c := by
  obtain ⟨k, rfl⟩ := hc
  rw [Nat.mul_comm] at h ⊢
  rw [roundUnits_one]
  exact Nat.mul_le_mul_right _ (roundQuotient_le (gap_pos u) h)

/-- Rounding down does not pass a multiple of the gap. -/
theorem le_roundUnits (h : c ≤ u) (hc : gap u ∣ c) : c ≤ roundUnits u 1 := by
  obtain ⟨k, rfl⟩ := hc
  rw [Nat.mul_comm] at h ⊢
  rw [roundUnits_one]
  exact Nat.mul_le_mul_right _ (le_roundQuotient (gap_pos u) h)

/-- A double is its own rounding. -/
theorem roundUnits_eq_self (h : gap u ∣ u) : roundUnits u 1 = u :=
  Nat.le_antisymm (roundUnits_le (Nat.le_refl u) h) (le_roundUnits (Nat.le_refl u) h)

/-- Rounding keeps the order. -/
theorem roundUnits_mono (h : u ≤ v) : roundUnits u 1 ≤ roundUnits v 1 := by
  obtain rfl | hu := Nat.eq_zero_or_pos u
  · rw [roundUnits_eq_self (Nat.dvd_zero _)]
    exact Nat.zero_le _
  have hv : v ≠ 0 := by omega
  have hlog : u.log2 ≤ v.log2 :=
    (Nat.le_log2 hv).2 (Nat.le_trans (Nat.log2_self_le (by omega)) h)
  obtain heq | hlt := Nat.eq_or_lt_of_le hlog
  · have hgap : gap u = gap v := by rw [gap, gap, spareBits, spareBits, heq]
    rw [roundUnits_one, roundUnits_one, hgap]
    exact Nat.mul_le_mul_right _ (roundQuotient_mono h)
  · -- a power of two lies between the two, and both gaps divide it
    calc roundUnits u 1
        ≤ twoTo v.log2 := by
          refine roundUnits_le (Nat.le_of_lt ?_) (twoTo_dvd_twoTo (by unfold spareBits; omega))
          exact Nat.lt_of_lt_of_le Nat.lt_log2_self (twoTo_le_twoTo hlt)
      _ ≤ roundUnits v 1 :=
          le_roundUnits (Nat.log2_self_le hv)
            (twoTo_dvd_twoTo (by unfold spareBits precision; omega))

end

/-- Rounding goes no further than half of a gap. -/
theorem roundUnits_near (u : ℕ) :
    2 * roundUnits u 1 ≤ 2 * u + gap u ∧ 2 * u ≤ 2 * roundUnits u 1 + gap u := by
  rw [roundUnits_one]
  exact roundQuotient_near (gap_pos u) u

/-- A whole multiple of a power of two, by less than `2 ^ 53`, is a double. -/
theorem gap_dvd_mul_twoTo {m : ℕ} (hm : m < twoTo precision) (e : ℕ) :
    gap (m * twoTo e) ∣ m * twoTo e := by
  obtain rfl | hpos := Nat.eq_zero_or_pos m
  · rw [Nat.zero_mul]
    exact Nat.dvd_zero _
  have hne : m * twoTo e ≠ 0 := Nat.ne_of_gt (Nat.mul_pos hpos (twoTo_pos e))
  have hlog : (m * twoTo e).log2 < precision + e := by
    refine (Nat.log2_lt hne).2 ?_
    calc m * twoTo e < twoTo precision * twoTo e := Nat.mul_lt_mul_of_pos_right hm (twoTo_pos e)
      _ = twoTo (precision + e) := (twoTo_add _ _).symm
  exact Nat.dvd_mul_left_of_dvd (twoTo_dvd_twoTo (by unfold spareBits; omega)) m

/-! ### Integers -/

/-- An integer whose magnitude has at most 53 significant bits. -/
def Exact (n : ℤ) : Prop := ∃ m e, m < twoTo precision ∧ n.natAbs = m * twoTo e

/-- The magnitude of an integer, in units. -/
def unitsOf (n : ℤ) : ℕ := n.natAbs * twoTo scale

section

variable {a b n : ℤ}

theorem value_ofInt_of_nonneg (h : 0 ≤ n) : (ofInt n).value = roundUnits (unitsOf n) 1 := by
  simp [value, ofInt, unitsOf, Int.not_lt.2 h]

theorem value_ofInt_of_neg (h : n < 0) : (ofInt n).value = -roundUnits (unitsOf n) 1 := by
  simp [value, ofInt, unitsOf, h]

theorem unitsOf_le_unitsOf (h : a.natAbs ≤ b.natAbs) : unitsOf a ≤ unitsOf b :=
  Nat.mul_le_mul_right _ h

/-- An integer of at most 53 significant bits is not rounded. -/
theorem Exact.roundUnits_eq (h : Exact n) : roundUnits (unitsOf n) 1 = unitsOf n := by
  obtain ⟨m, e, hm, hn⟩ := h
  refine roundUnits_eq_self ?_
  have hunits : unitsOf n = m * twoTo (e + scale) := by
    rw [unitsOf, hn, twoTo_add, Nat.mul_assoc]
  rw [hunits]
  exact gap_dvd_mul_twoTo hm _

/-- Doubles of integers are ordered as the integers are. -/
theorem value_ofInt_mono (h : a ≤ b) : (ofInt a).value ≤ (ofInt b).value := by
  obtain ha | ha := Int.lt_or_le a 0 <;> obtain hb | hb := Int.lt_or_le b 0
  · have hround := roundUnits_mono (unitsOf_le_unitsOf (show b.natAbs ≤ a.natAbs by omega))
    rw [value_ofInt_of_neg ha, value_ofInt_of_neg hb]
    omega
  · rw [value_ofInt_of_neg ha, value_ofInt_of_nonneg hb]
    omega
  · omega
  · have hround := roundUnits_mono (unitsOf_le_unitsOf (show a.natAbs ≤ b.natAbs by omega))
    rw [value_ofInt_of_nonneg ha, value_ofInt_of_nonneg hb]
    omega

/-- A negative integer is not rounded to zero. -/
theorem value_ofInt_neg (h : n < 0) : (ofInt n).value < 0 := by
  have hone : roundUnits (unitsOf 1) 1 = unitsOf 1 :=
    Exact.roundUnits_eq ⟨1, 0, by decide, rfl⟩
  have hpos : 0 < unitsOf 1 := Nat.mul_pos (by decide) (twoTo_pos scale)
  have hround := roundUnits_mono (unitsOf_le_unitsOf (show (1 : ℤ).natAbs ≤ n.natAbs by omega))
  rw [value_ofInt_of_neg h]
  omega

theorem ofInt_eq_ofInt_iff :
    ofInt a = ofInt b ↔
      (a < 0 ↔ b < 0) ∧ roundUnits (unitsOf a) 1 = roundUnits (unitsOf b) 1 := by
  unfold ofInt unitsOf
  rw [Binary64.mk.injEq, decide_eq_decide]

/-- The double of an integer is known by its value. -/
theorem ofInt_eq_of_value_eq (h : (ofInt a).value = (ofInt b).value) : ofInt a = ofInt b := by
  rw [ofInt_eq_ofInt_iff]
  obtain ha | ha := Int.lt_or_le a 0 <;> obtain hb | hb := Int.lt_or_le b 0
  · rw [value_ofInt_of_neg ha, value_ofInt_of_neg hb] at h
    exact ⟨iff_of_true ha hb, by omega⟩
  · have hneg := value_ofInt_neg ha
    rw [h, value_ofInt_of_nonneg hb] at hneg
    omega
  · have hneg := value_ofInt_neg hb
    rw [← h, value_ofInt_of_nonneg ha] at hneg
    omega
  · rw [value_ofInt_of_nonneg ha, value_ofInt_of_nonneg hb] at h
    exact ⟨iff_of_false (Int.not_lt.2 ha) (Int.not_lt.2 hb), by omega⟩

/-- **Doubles of integers compare as the integers do**, unless they are one double. -/
theorem compare_ofInt (a b : ℤ) :
    (ofInt a).compare (ofInt b) = if ofInt a = ofInt b then .eq else Ord.compare a b := by
  split_ifs with heq
  · rw [heq]
    exact Std.compare_self
  have hvalue : (ofInt a).value ≠ (ofInt b).value := fun h => heq (ofInt_eq_of_value_eq h)
  obtain hlt | rfl | hgt := Int.lt_trichotomy a b
  · have hle := value_ofInt_mono (Int.le_of_lt hlt)
    rw [Std.compare_eq_lt.2 hlt]
    exact Std.compare_eq_lt.2 (by omega)
  · exact absurd rfl heq
  · have hle := value_ofInt_mono (Int.le_of_lt hgt)
    rw [Std.compare_eq_gt.2 hgt]
    exact Std.compare_eq_gt.2 (by omega)

/-- Integers of at most 53 significant bits have doubles of their own. -/
theorem Exact.eq_of_ofInt_eq (ha : Exact a) (hb : Exact b) (h : ofInt a = ofInt b) : a = b := by
  obtain ⟨hsign, hround⟩ := ofInt_eq_ofInt_iff.1 h
  rw [ha.roundUnits_eq, hb.roundUnits_eq] at hround
  have habs : a.natAbs = b.natAbs := Nat.eq_of_mul_eq_mul_right (twoTo_pos scale) hround
  omega

theorem gap_unitsOf_le {k : ℕ} (h : n.natAbs < twoTo (precision + k)) :
    gap (unitsOf n) ≤ twoTo k * twoTo scale := by
  rw [← twoTo_add]
  refine twoTo_le_twoTo ?_
  obtain hzero | hne := Nat.eq_zero_or_pos (unitsOf n)
  · rw [hzero]
    exact Nat.zero_le _
  have hlog : (unitsOf n).log2 < precision + k + scale := by
    refine (Nat.log2_lt (Nat.ne_of_gt hne)).2 ?_
    calc unitsOf n < twoTo (precision + k) * twoTo scale :=
          Nat.mul_lt_mul_of_pos_right h (twoTo_pos scale)
      _ = twoTo (precision + k + scale) := (twoTo_add _ _).symm
  unfold spareBits
  omega

/-- A magnitude exceeds another of the same rounding by a gap at most. -/
theorem natAbs_le_of_roundUnits_eq {k : ℕ} (ha : a.natAbs < twoTo (precision + k))
    (hb : b.natAbs < twoTo (precision + k))
    (h : roundUnits (unitsOf a) 1 = roundUnits (unitsOf b) 1) : a.natAbs ≤ b.natAbs + twoTo k := by
  obtain ⟨-, hup⟩ := roundUnits_near (unitsOf a)
  obtain ⟨hdown, -⟩ := roundUnits_near (unitsOf b)
  have hgapA := gap_unitsOf_le ha
  have hgapB := gap_unitsOf_le hb
  have hunits : unitsOf a ≤ (b.natAbs + twoTo k) * twoTo scale := by
    rw [Nat.add_mul]
    unfold unitsOf at *
    omega
  exact Nat.le_of_mul_le_mul_right hunits (twoTo_pos scale)

/-- Integers with one double lie no further apart than doubles of their size do. -/
theorem natAbs_sub_le_of_ofInt_eq {k : ℕ} (ha : a.natAbs < twoTo (precision + k))
    (hb : b.natAbs < twoTo (precision + k)) (h : ofInt a = ofInt b) :
    (a - b).natAbs ≤ twoTo k := by
  obtain ⟨hsign, hround⟩ := ofInt_eq_ofInt_iff.1 h
  have hab := natAbs_le_of_roundUnits_eq ha hb hround
  have hba := natAbs_le_of_roundUnits_eq hb ha hround.symm
  omega

end

end EntityGraph.Binary64
