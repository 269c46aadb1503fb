import DocBlock.Decimal.Basic

/-! Binary floating point with a significand of 53 bits: rounding to the nearest, ties to even, and
the shortest decimal that rounds back. -/

namespace DocBlock

/-- The nonnegative number `significand * 2 ^ exponent`. -/
structure Binary where
  significand : Nat
  exponent : Int
  deriving DecidableEq, Repr

namespace Binary

def bits : Nat := 53

def leastExponent : Int := -1074

def greatestExponent : Int := 971

/-- A nonnegative rational, as numerator and denominator. -/
abbrev Ratio := Nat × Nat

/-- The number as a ratio. -/
def ratio (number : Binary) : Ratio :=
  if 0 ≤ number.exponent then (number.significand * Nat.pow 2 number.exponent.toNat, 1)
  else (number.significand, Nat.pow 2 (-number.exponent).toNat)

/-- The ratio divided by a power of the base. -/
def scaled (base : Nat) (value : Ratio) (exponent : Int) : Ratio :=
  if 0 ≤ exponent then (value.1, value.2 * base.pow exponent.toNat)
  else (value.1 * base.pow (-exponent).toNat, value.2)

/-- The nearest integer; of two equally near, the even one. -/
def roundEven (value : Ratio) : Nat :=
  let floor := value.1 / value.2
  let rest := 2 * (value.1 % value.2)
  if rest < value.2 then floor
  else if value.2 < rest then floor + 1
  else if floor % 2 = 0 then floor else floor + 1

/-- The exponent at which the ratio has a significand of exactly 53 bits, or the least exponent. -/
def exponentFor (value : Ratio) : Int :=
  let guess : Int := (value.1.log2 : Int) - value.2.log2 - bits
  let candidate := scaled 2 value guess
  let exponent := if candidate.1 / candidate.2 < Nat.pow 2 bits then guess else guess + 1
  max exponent leastExponent

/-- The nearest number; none above the range. -/
def nearest? (value : Ratio) : Option Binary :=
  if value.1 = 0 then some ⟨0, 0⟩
  else
    let exponent := exponentFor value
    let significand := roundEven (scaled 2 value exponent)
    let rounded : Binary :=
      if significand = Nat.pow 2 bits then ⟨Nat.pow 2 (bits - 1), exponent + 1⟩
      else ⟨significand, exponent⟩
    if rounded.exponent ≤ greatestExponent then some rounded else none

def multiply? (left right : Binary) : Option Binary :=
  nearest? (left.ratio.1 * right.ratio.1, left.ratio.2 * right.ratio.2)

def divide? (left right : Binary) : Option Binary :=
  nearest? (left.ratio.1 * right.ratio.2, left.ratio.2 * right.ratio.1)

/-- The ends of the stretch of reals that round to the number, in the order low, high. Below a power
of two the neighbour is half as far. -/
def neighbourhood (number : Binary) : Ratio × Ratio :=
  let isPower := number.significand = Nat.pow 2 (bits - 1) ∧ leastExponent < number.exponent
  let low : Binary := if isPower then ⟨4 * number.significand - 1, number.exponent - 2⟩
    else ⟨2 * number.significand - 1, number.exponent - 1⟩
  (low.ratio, ratio ⟨2 * number.significand + 1, number.exponent - 1⟩)

/-- Whether a ratio rounds to the number; the ends count for an even significand. -/
def isRoundedFrom (number : Binary) (value : Ratio) : Bool :=
  let (low, high) := number.neighbourhood
  let below := compare (low.1 * value.2) (value.1 * low.2)
  let above := compare (value.1 * high.2) (high.1 * value.2)
  if number.significand % 2 = 0 then below.isLE && above.isLE else below.isLT && above.isLT

/-- The power of ten of a positive ratio's leading digit. -/
def magnitude (value : Ratio) : Int :=
  if value.2 ≤ value.1 then (Nat.toDigits 10 (value.1 / value.2)).length - 1
  else
    let inverse := (value.2 + value.1 - 1) / value.1
    Int.negOfNat (Nat.toDigits 10 (inverse - 1)).length

/-- The nearer of the value's two neighbours on a decimal grid that round to the number; of two
equally near, the even one. -/
def onGrid? (number : Binary) (grid : Int) : Option Nat :=
  let value := scaled 10 number.ratio grid
  let floor := value.1 / value.2
  let rounds (n : Nat) : Bool := number.isRoundedFrom (scaled 10 (n, 1) (-grid))
  match rounds floor, rounds (floor + 1) with
  | true, true => some (roundEven value)
  | true, false => some floor
  | false, true => some (floor + 1)
  | false, false => none

/-- Tries grids with one digit more at each step. -/
def shortestFrom (number : Binary) : (steps : Nat) → (grid : Int) → Nat × Int
  | 0, grid => ((number.onGrid? grid).getD 0, grid)
  | steps + 1, grid =>
    match number.onGrid? grid with
    | some digits => (digits, grid)
    | none => shortestFrom number steps (grid - 1)

/-- The decimal with the fewest digits that rounds to the number. -/
def shortest (negative : Bool) (number : Binary) : Decimal :=
  if number.significand = 0 then ⟨negative, 0, 0⟩
  else
    let (digits, grid) := shortestFrom number 16 (magnitude number.ratio)
    let (digits, exponent) := Decimal.stripZeros 20 digits grid
    ⟨negative, digits, exponent⟩

/-- The greatest power of ten in the range, and the one that scaling goes by. -/
def powerStep : Nat := 308

def powerOfTen (exponent : Nat) : Binary :=
  (nearest? (Nat.pow 10 exponent, 1)).getD ⟨0, 0⟩

/-- Divides by the greatest power of ten again and again, until nothing is left. -/
def shrink : (steps : Nat) → Binary → Option Binary
  | 0, number => some number
  | steps + 1, number =>
    if number.significand = 0 then some number
    else (number.divide? (powerOfTen powerStep)).bind (shrink steps)

/-- A whole number times a power of ten, each step rounded: first the number, then the product with
the rounded power, or the quotient by it. None above the range. -/
def ofScaled? (digits : Nat) (exponent : Int) : Option Binary := do
  let number ← nearest? (digits, 1)
  if number.significand = 0 then return number
  if 0 ≤ exponent then
    if exponent ≤ powerStep then number.multiply? (powerOfTen exponent.toNat) else none
  else
    let places := (-exponent).toNat
    let steps := (places - 1) / powerStep
    let shrunk ← shrink steps number
    if shrunk.significand = 0 then return shrunk
    shrunk.divide? (powerOfTen (places - powerStep * steps))

example : (ofScaled? 1 (-1)).map (shortest false) = some ⟨false, 1, -1⟩ := by decide +kernel
example : ofScaled? 1 400 = none := by decide +kernel

end Binary

end DocBlock
