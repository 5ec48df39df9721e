import EntityGraph.Number.Binary64

/-!
Decimal literals as they are read into doubles. The digits are kept in 64 bits: a digit before the
point that no longer fits counts as a place, and one after the point is dropped. The result is
scaled by powers of ten with a rounding at every step, so that it may miss the nearest double by a
little.
-/

namespace EntityGraph

/-- The number `digits * 10 ^ exp`. -/
structure Decimal where
  digits : Nat
  exp : Int
deriving DecidableEq, Repr

namespace Decimal

/-- Digits fit 64 bits. -/
def Fits (n : Nat) : Prop := n < 18446744073709551616

instance (n : Nat) : Decidable (Fits n) := inferInstanceAs (Decidable (_ < _))

/-- The digits with one more at the end. -/
def shift (n : Nat) (c : Char) : Nat := n * 10 + (c.toNat - '0'.toNat)

/-- Takes on the digits before the point. -/
def whole : List Char → Nat → Decimal
  | [], n => ⟨n, 0⟩
  | c :: cs, n => if Fits (shift n c) then whole cs (shift n c) else ⟨n, (cs.length : Int) + 1⟩

/-- Takes on the digits after the point. -/
def fraction : List Char → Decimal → Decimal
  | [], d => d
  | c :: cs, d => if Fits (shift d.digits c) then fraction cs ⟨shift d.digits c, d.exp - 1⟩ else d

/-- The number of a literal: the digits before and after the point, and the exponent. -/
def ofLiteral (ws fs : List Char) (exp : Int) : Decimal :=
  let d := fraction fs (whole ws 0)
  ⟨d.digits, d.exp + exp⟩

/-! ### Scaling -/

/-- The largest power of ten that is used in one step. -/
def maxPower : Nat := 308

/-- Divides a magnitude by a power of ten, in steps. -/
def lower (units places : Nat) : Nat :=
  if places ≤ maxPower then Binary64.quotientUnits units (Binary64.decimalUnits 1 places)
  else if units = 0 then 0
  else lower (Binary64.quotientUnits units (Binary64.decimalUnits 1 maxPower)) (places - maxPower)
termination_by places
decreasing_by simp only [maxPower] at *; omega

/-- The double that a decimal number is read as, or nothing when it is too large to be finite. -/
def toBinary64? (neg : Bool) (d : Decimal) : Option Binary64 :=
  let units := Binary64.decimalUnits d.digits 0
  if d.digits = 0 then some ⟨neg, 0⟩
  else if d.exp < 0 then some ⟨neg, lower units d.exp.natAbs⟩
  else if maxPower < d.exp.natAbs then none
  else
    let units := Binary64.productUnits units (Binary64.decimalUnits 1 d.exp)
    if units < Binary64.limit then some ⟨neg, units⟩ else none

end Decimal

end EntityGraph
