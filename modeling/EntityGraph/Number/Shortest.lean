import EntityGraph.Number.Binary64

/-!
The decimal text of a double: the fewest digits that read back as the same number, and of those
the nearest to it. Exponents from `-5` to `15` are written in positional notation with at least
one decimal, all others in scientific notation with the sign of the exponent.
-/

namespace EntityGraph.Binary64

/-! ### The interval of a double -/

/-- The significand and the number of spare bits of a magnitude. -/
def significand (units : Nat) : Nat := units / twoTo (spareBits units)

/-- Four times the lower end of the numbers that round to a magnitude. -/
def lowEnd (units : Nat) : Nat :=
  let gap := twoTo (spareBits units)
  if significand units = twoTo (precision - 1) ∧ spareBits units ≠ 0 then 4 * units - gap
  else 4 * units - 2 * gap

/-- Four times the upper end of the numbers that round to a magnitude. -/
def highEnd (units : Nat) : Nat := 4 * units + 2 * twoTo (spareBits units)

/-- The ends belong to the interval when the significand is even. -/
def inInterval (units : Nat) (num den : Nat) : Bool :=
  let low := lowEnd units * den
  let high := highEnd units * den
  if significand units % 2 = 0 then low ≤ num && num ≤ high else low < num && num < high

/-! ### Digits -/

/-- The exponent of the first digit of `units * 2 ^ (-1074)`, searched downwards for numbers
below one. -/
def leadingExponent (units : Nat) : Int :=
  let whole := units / twoTo scale
  if whole ≠ 0 then ((Nat.toDigits 10 whole).length : Int) - 1
  else go units 0 330
where
  go (n : Nat) (e : Int) : Nat → Int
    | 0 => e
    | fuel + 1 => if twoTo scale ≤ n then e else go (n * 10) (e - 1) fuel

/-- The decimal `digits * 10 ^ exp` as a fraction of quarter units. -/
def quarterFraction (digits : Nat) (exp : Int) : Nat × Nat :=
  if exp < 0 then (digits * twoTo (scale + 2), tenTo exp.natAbs)
  else (digits * tenTo exp.natAbs * twoTo (scale + 2), 1)

/-- The distance of `digits * 10 ^ exp` from a magnitude, over the denominator of the fraction. -/
def distance (units digits : Nat) (exp : Int) : Nat :=
  let (num, den) := quarterFraction digits exp
  (num - 4 * units * den) + (4 * units * den - num)

/-- The whole part of a magnitude over `10 ^ exp`. -/
def gridFloor (units : Nat) (exp : Int) : Nat :=
  if exp < 0 then units * tenTo exp.natAbs / twoTo scale
  else units / (tenTo exp.natAbs * twoTo scale)

/-- The digits on the grid of `10 ^ exp` that read back as the magnitude, the nearer of the two
neighbours when both do. -/
def onGrid? (units : Nat) (exp : Int) : Option Nat :=
  let d := gridFloor units exp
  let fits (n : Nat) : Bool :=
    let (num, den) := quarterFraction n exp
    n ≠ 0 && inInterval units num den
  match fits d, fits (d + 1) with
  | true, true =>
    let below := distance units d exp
    let above := distance units (d + 1) exp
    if below < above then some d
    else if above < below then some (d + 1)
    else if d % 2 = 0 then some d else some (d + 1)
  | true, false => some d
  | false, true => some (d + 1)
  | false, false => none

/-- The first grid that holds a number reading back as the magnitude, from coarse to fine. -/
def searchDigits (units : Nat) (lead : Int) : Nat → Nat → Nat × Int
  | 0, count => (gridFloor units (lead - count), lead - count)
  | more + 1, count =>
    match onGrid? units (lead - count) with
    | some d => (d, lead - count)
    | none => searchDigits units lead more (count + 1)

/-- The fewest digits of a magnitude and the exponent of the last of them. -/
def shortest (units : Nat) : Nat × Int := searchDigits units (leadingExponent units) 17 0

/-! ### Text -/

/-- Digits without the zeros at their end. -/
def trimZeros (ds : List Char) : List Char := (ds.reverse.dropWhile (· = '0')).reverse

/-- How a number is laid out: its digits, without zeros at the end, and the exponent of the
first. -/
def layout (ds : List Char) (exp : Int) : List Char :=
  if 0 ≤ exp ∧ exp ≤ 15 then
    let before := exp.toNat + 1
    let whole := ds.take before ++ List.replicate (before - ds.length) '0'
    let rest := ds.drop before
    whole ++ '.' :: (if rest.isEmpty then ['0'] else rest)
  else if -5 ≤ exp ∧ exp < 0 then
    '0' :: '.' :: (List.replicate (exp.natAbs - 1) '0' ++ ds)
  else
    let mantissa :=
      match ds with
      | [] => []
      | [d] => [d]
      | d :: rest => d :: '.' :: rest
    let sign := if exp < 0 then '-' else '+'
    mantissa ++ 'e' :: sign :: Nat.toDigits 10 exp.natAbs

/-- The decimal text of a double. -/
def text (x : Binary64) : String :=
  let body :=
    if x.units = 0 then ['0', '.', '0']
    else
      let (d, exp) := shortest x.units
      let ds := Nat.toDigits 10 d
      layout (trimZeros ds) (exp + ((ds.length : Int) - 1))
  String.ofList (if x.neg then '-' :: body else body)

end EntityGraph.Binary64
