/-! Decimal numbers and their text. -/

namespace DocBlock

/-- The digits, read as one number, times a power of ten. -/
structure Decimal where
  negative : Bool
  digits : Nat
  exponent : Int
  deriving DecidableEq, Repr

namespace Decimal

/-- Trailing zeros move into the exponent, at most as many as there are steps. -/
def stripZeros : (steps : Nat) → (digits : Nat) → (exponent : Int) → Nat × Int
  | 0, digits, exponent => (digits, exponent)
  | steps + 1, digits, exponent =>
    if digits ≠ 0 ∧ digits % 10 = 0 then stripZeros steps (digits / 10) (exponent + 1)
    else (digits, exponent)

def zeros (n : Nat) : List Char := List.replicate n '0'

/-- The power of ten of the leading digit. -/
def magnitude (digits : List Char) (exponent : Int) : Int :=
  exponent + digits.length - 1

/-- Positional notation, always with a digit after the point. -/
def positional (digits : List Char) (exponent : Int) : List Char :=
  if 0 ≤ exponent then digits ++ zeros exponent.toNat ++ ['.', '0']
  else
    let places := (-exponent).toNat
    if places < digits.length then
      digits.take (digits.length - places) ++ '.' :: digits.drop (digits.length - places)
    else '0' :: '.' :: zeros (places - digits.length) ++ digits

/-- One digit before the point, and an exponent with its sign. -/
def scientific (digits : List Char) (exponent : Int) : List Char :=
  let power := magnitude digits exponent
  let fraction := if digits.length ≤ 1 then [] else '.' :: digits.drop 1
  let sign := if power < 0 then '-' else '+'
  digits.take 1 ++ fraction ++ 'e' :: sign :: Nat.toDigits 10 power.natAbs

/-- Leading digits from the fifth place after the point to the sixteenth before it are written
positionally, all others with an exponent. -/
def text (number : Decimal) : List Char :=
  let digits := Nat.toDigits 10 number.digits
  let power := magnitude digits number.exponent
  let unsigned :=
    if number.digits = 0 then ['0', '.', '0']
    else if -5 ≤ power ∧ power < 16 then positional digits number.exponent
    else scientific digits number.exponent
  if number.negative then '-' :: unsigned else unsigned

example : String.ofList (text ⟨false, 3, -5⟩) = "0.00003" := by decide +kernel
example : String.ofList (text ⟨false, 25, -1⟩) = "2.5" := by decide +kernel
example : String.ofList (text ⟨true, 0, 0⟩) = "-0.0" := by decide +kernel
example : String.ofList (text ⟨false, 1, 15⟩) = "1000000000000000.0" := by decide +kernel
example : String.ofList (text ⟨false, 1, 16⟩) = "1e+16" := by decide +kernel
example : String.ofList (text ⟨false, 15, -8⟩) = "1.5e-7" := by decide +kernel

end Decimal

end DocBlock
