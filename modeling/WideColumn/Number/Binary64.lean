import WideColumn.Text.Padding

/-!
# Non-negative double precision numbers, exactly

Durations and average loads are computed in double precision and shown in decimal. A `Binary64` is
the exact value `mantissa * 2 ^ exponent`; `Binary64.ofRatio` rounds a quotient to the nearest such
value with 53 significant bits, a tie going to the even mantissa. The quotients met here lie far
from both ends of the exponent range, so the exponent is not bounded.
-/

namespace WideColumn.Number

/-- The quotient rounded to the nearest integer; a tie goes to the even neighbour. -/
def divRound (num den : Nat) : Nat :=
  let low := num / den
  let twice := 2 * (num % den)
  if twice < den then low
  else if den < twice then low + 1
  else if low % 2 = 0 then low else low + 1

/-- A double precision number that is not negative: `mantissa * 2 ^ exponent`. -/
structure Binary64 where
  /-- The significant bits; at least `2 ^ 52` unless the number is zero. -/
  mantissa : Nat
  /-- The power of two the mantissa is multiplied by. -/
  exponent : Int
  deriving DecidableEq

namespace Binary64

/-- A scaled ratio: `num / den * 2 ^ shift` as numerator and denominator. -/
def scaled (num den : Nat) (shift : Int) : Nat × Nat :=
  (num * Nat.pow 2 shift.toNat, den * Nat.pow 2 (-shift).toNat)

/-- The double nearest to `num / den`; a tie goes to the even mantissa. -/
def ofRatio (num den : Nat) : Binary64 :=
  if num = 0 ∨ den = 0 then ⟨0, 0⟩
  else
    let guess : Int := (Nat.log2 num : Int) - (Nat.log2 den : Int) - 52
    let atGuess := scaled num den (-guess)
    let exponent := if atGuess.1 / atGuess.2 < Nat.pow 2 52 then guess - 1 else guess
    let exact := scaled num den (-exponent)
    let mantissa := divRound exact.1 exact.2
    if mantissa = Nat.pow 2 53 then ⟨Nat.pow 2 52, exponent + 1⟩ else ⟨mantissa, exponent⟩

/-- The exact value as numerator and denominator. -/
def toRatio (x : Binary64) : Nat × Nat :=
  scaled x.mantissa 1 x.exponent

/-- The sum rounded to the nearest double. -/
def add (x y : Binary64) : Binary64 :=
  let a := x.toRatio
  let b := y.toRatio
  ofRatio (a.1 * b.2 + b.1 * a.2) (a.2 * b.2)

/-- The decimal text with a fixed number of places, correctly rounded from the exact value. -/
def fixed (places : Nat) (x : Binary64) : String :=
  let ratio := x.toRatio
  let units := divRound (ratio.1 * Nat.pow 10 places) ratio.2
  let fraction := Text.padLeft '0' places (toString (units % Nat.pow 10 places)).toList
  toString (units / Nat.pow 10 places) ++ "." ++ String.ofList fraction

end Binary64

end WideColumn.Number
