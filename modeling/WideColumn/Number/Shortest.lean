import WideColumn.Number.Binary64

/-!
# Shortest decimals

The shortest decimal of a double is the one with the fewest digits among those that round to it,
and of these the nearest. `Binary64.shortest` finds it in exact arithmetic: for one digit, two
digits and so on it tests the two neighbours of the value on the decimal grid of that many digits
and takes the first grid that has a point in the rounding interval. `Binary64.shortestText` writes
it as in a JSON document.
-/

namespace WideColumn.Number.Binary64

/-- A decimal number `digits * 10 ^ exponent`. -/
structure Decimal where
  digits : Nat
  /-- The power of ten it is multiplied by. -/
  exponent : Int
  deriving DecidableEq

/-- Whether `candidate = (num, den)` rounds to `x`: it lies within half a step of `x`, the step
below a power of two being half as wide, and the ends belong to an even mantissa. -/
def roundsTo (x : Binary64) (candidate : Nat × Nat) : Bool :=
  let lowQuarters := if x.mantissa = Nat.pow 2 52 then 4 * x.mantissa - 1 else 4 * x.mantissa - 2
  let highQuarters := 4 * x.mantissa + 2
  let low := scaled lowQuarters 4 x.exponent
  let high := scaled highQuarters 4 x.exponent
  let closed := x.mantissa % 2 = 0
  let fromLow := compare (low.1 * candidate.2) (candidate.1 * low.2)
  let toHigh := compare (candidate.1 * high.2) (high.1 * candidate.2)
  (fromLow = .lt || (closed && fromLow = .eq)) && (toHigh = .lt || (closed && toHigh = .eq))

/-- A decimal as numerator and denominator. -/
def Decimal.toRatio (d : Decimal) : Nat × Nat :=
  (d.digits * Nat.pow 10 d.exponent.toNat, Nat.pow 10 (-d.exponent).toNat)

/-- The nearest of the two grid neighbours of `num / den` at a power of ten that round to `x`. -/
def onGrid (x : Binary64) (exponent : Int) : Option Decimal :=
  let ratio := x.toRatio
  let num := ratio.1 * Nat.pow 10 (-exponent).toNat
  let den := ratio.2 * Nat.pow 10 exponent.toNat
  let nearest := divRound num den
  let other := if nearest * den ≤ num then nearest + 1 else nearest - 1
  [nearest, other].map (⟨·, exponent⟩ : Nat → Decimal) |>.find? fun d => x.roundsTo d.toRatio

/-- The exponent of the leading decimal digit of `num / den`, searched downwards from `exponent`. -/
def leadingExponent (num den : Nat) : Nat → Int → Int
  | 0, exponent => exponent
  | fuel + 1, exponent =>
    if den * Nat.pow 10 exponent.toNat ≤ num * Nat.pow 10 (-exponent).toNat then exponent
    else leadingExponent num den fuel (exponent - 1)

/-- Removes trailing zero digits. -/
def Decimal.strip : Nat → Decimal → Decimal
  | 0, d => d
  | fuel + 1, d =>
    if d.digits % 10 = 0 then Decimal.strip fuel ⟨d.digits / 10, d.exponent + 1⟩ else d

/-- The decimal with the fewest digits that rounds to a positive `x`, the nearest of several. -/
def shortest (x : Binary64) : Decimal :=
  let ratio := x.toRatio
  let top : Int := (Nat.log2 ratio.1 : Int) / 3 + 1
  let leading := leadingExponent ratio.1 ratio.2 (top.toNat + Nat.log2 ratio.2 + 2) top
  let grids := (List.range 17).map fun (n : Nat) => leading - (n : Int)
  match grids.findSome? (onGrid x) with
  | some d => Decimal.strip 17 d
  | none => ⟨0, 0⟩

/-- The shortest decimal as a number of a JSON document: a point between the fifth place after and
the sixteenth place before the digits, otherwise one digit before the point and an exponent. -/
def shortestText (x : Binary64) : String :=
  if x.mantissa = 0 then "0.0"
  else
    let d := x.shortest
    let digits := toString d.digits
    let length := digits.length
    let point : Int := length + d.exponent
    if 0 ≤ d.exponent && point ≤ 16 then
      digits ++ String.ofList (List.replicate d.exponent.toNat '0') ++ ".0"
    else if 0 < point && point ≤ 16 then
      String.ofList (digits.toList.take point.toNat) ++ "." ++
        String.ofList (digits.toList.drop point.toNat)
    else if -5 < point && point ≤ 0 then
      "0." ++ String.ofList (List.replicate (-point).toNat '0') ++ digits
    else
      let exponent := toString (point - 1)
      if length = 1 then digits ++ "e" ++ exponent
      else
        String.ofList (digits.toList.take 1) ++ "." ++ String.ofList (digits.toList.drop 1) ++
          "e" ++ exponent

end WideColumn.Number.Binary64
