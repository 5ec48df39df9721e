/-!
Finite double-precision numbers. Every such number is a whole multiple of `2 ^ (-1074)`, so it is
kept as a sign and a count of these units: comparing two of them is comparing integers. A
number that is not representable goes to the nearest one that is, a tie to the even neighbour.
-/

namespace EntityGraph

/-- A finite double: its sign, and its magnitude counted in units of `2 ^ (-1074)`. -/
structure Binary64 where
  neg : Bool
  units : Nat
deriving DecidableEq, Repr, Inhabited

namespace Binary64

/-- Two to the power of `n`. -/
def twoTo (n : Nat) : Nat := Nat.pow 2 n

/-- Ten to the power of `n`. -/
def tenTo (n : Nat) : Nat := Nat.pow 10 n

theorem twoTo_pos (n : Nat) : 0 < twoTo n := Nat.pow_pos (by decide)

/-- The number of bits of a significand. -/
def precision : Nat := 53

/-- The power of two that makes one unit: `1` is `2 ^ scale` units. -/
def scale : Nat := 1074

/-- Magnitudes from here on are not finite. -/
def limit : Nat := twoTo (1024 + scale)

/-- The number as an integer count of units. Both zeros have the same value. -/
def value (x : Binary64) : Int := if x.neg then -(x.units : Int) else x.units

/-- Comparison by value. -/
def compare (x y : Binary64) : Ordering := Ord.compare x.value y.value

/-- Equality by value: `0.0` and `-0.0` are equal. -/
def same (x y : Binary64) : Bool := x.value == y.value

theorem same_iff {x y : Binary64} : x.same y = true ↔ x.value = y.value := by simp [same]

/-! ### Rounding -/

/-- The nearest whole number to `num / den`, a tie to the even one. -/
def roundQuotient (num den : Nat) : Nat :=
  let q := num / den
  let r := num % den
  if 2 * r < den then q
  else if den < 2 * r then q + 1
  else if q % 2 = 0 then q else q + 1

/-- How many low bits a magnitude of this size leaves out of its significand. -/
def spareBits (units : Nat) : Nat := units.log2 + 1 - precision

/-- The nearest representable magnitude to `num / den` units. -/
def roundUnits (num den : Nat) : Nat :=
  let step := twoTo (spareBits (num / den))
  roundQuotient num (den * step) * step

/-- The magnitude of a product, rounded. -/
def productUnits (a b : Nat) : Nat := roundUnits (a * b) (twoTo scale)

/-- The magnitude of a quotient, rounded. -/
def quotientUnits (a b : Nat) : Nat := roundUnits (a * twoTo scale) b

/-- The double nearest to an integer that is small enough to have one. -/
def ofInt (n : Int) : Binary64 := ⟨decide (n < 0), roundUnits (n.natAbs * twoTo scale) 1⟩

/-- The magnitude of `digits * 10 ^ exp`, in units, rounded. -/
def decimalUnits (digits : Nat) (exp : Int) : Nat :=
  if exp < 0 then roundUnits (digits * twoTo scale) (tenTo exp.natAbs)
  else roundUnits (digits * tenTo exp.natAbs * twoTo scale) 1

/-- The double nearest to `digits * 10 ^ exp`, or nothing when it is too large to be finite. A
number of more than `310` places is too large and one that starts after place `330` is zero. -/
def ofDecimal? (neg : Bool) (digits : Nat) (exp : Int) : Option Binary64 :=
  let places := (Nat.toDigits 10 digits).length
  if digits = 0 then some ⟨neg, 0⟩
  else if 310 < exp + places then none
  else if exp + places < -330 then some ⟨neg, 0⟩
  else
    let units := decimalUnits digits exp
    if units < limit then some ⟨neg, units⟩ else none

end Binary64

end EntityGraph
