import TreeExtraction.Number.Arithmetic

/-! # Powers of ten

`Number.powerOfTen` raises ten to a power that need not be whole. The binary logarithm of the result
is `y * log₂ 10`; its whole part scales the result by a power of two, and the rest, at most one
half, goes through an exponential. The logarithm is carried in two parts, a leading one of few
binary digits and a small rest, so that the products of leading parts are exact. All other steps
round: the power is the nearest number or next to it, and the exponents 26 and 29 are the first
whole ones where it is not the nearest.
-/

namespace TreeExtraction

namespace Magnitude

/-- The magnitude without the last 32 binary digits of its mantissa. -/
def leading (x : Magnitude) : Magnitude :=
  ⟨x.mantissa - x.mantissa % 0x100000000, x.exponent, by have := x.mantissa_lt; omega,
    x.exponent_le, by have := x.normal; omega⟩

end Magnitude

namespace Number

def dyadic (negative : Bool) (m k : Nat) : Number :=
  ofRatio negative m (Nat.pow 2 k)

/-- The number without the last 32 binary digits of its mantissa. -/
def leading : Number → Number
  | .finite s x => .finite s x.leading
  | n => n

/-- A value in two parts, the sum of which is not rounded. -/
structure Parts where
  leading : Number
  rest : Number

def Parts.sum (p : Parts) : Number :=
  p.rest.add p.leading

def binaryLogOfTen : Parts :=
  ⟨dyadic false 0x1A934F 19, dyadic false 0x12F346E2BF9206 76⟩

def logOfTwo : Parts :=
  ⟨dyadic false 0x162E43 21, dyadic true 0x105C610CA86C39 81⟩

def nearestLogOfTwo : Number :=
  dyadic false 0x162E42FEFA39EF 53

def rootOfTen : Number :=
  dyadic false 0x194C583ADA5B53 51

/-- Coefficients of `z ^ 2`, `z ^ 4`, … in `z * (exp z + 1) / (exp z - 1) - 2`. -/
def exponentialCoefficients : List Number := [
  dyadic false 0x1555555555553E 55, dyadic true 0x16C16C16BEBD93 61,
  dyadic false 0x11566AAF25DE2C 66, dyadic true 0x1BBD41C5D26BF1 72,
  dyadic false 0x16376972BEA4D0 77]

def polynomial (coefficients : List Number) (x : Number) : Number :=
  coefficients.foldr (fun c sum => c.add (x.mul sum)) zero

/-- The binary logarithm of the power of ten with an exponent. -/
def binaryLogOfPower (y : Number) : Parts :=
  ⟨y.leading.mul binaryLogOfTen.leading,
    ((y.sub y.leading).mul binaryLogOfTen.leading).add (y.mul binaryLogOfTen.rest)⟩

/-- Two to the power of a sum of parts between one half below zero and one half above. With `z + w`
for the natural logarithm of the result and `c = z - (z * (exp z + 1) / (exp z - 1) - 2)`, the
exponential is `1 + z + z * c / (2 - c)`, and `w` moves the divisor. -/
def powerOfTwo (p : Parts) : Number :=
  let t := p.sum.leading
  let u := t.mul logOfTwo.leading
  let v := ((p.rest.sub (t.sub p.leading)).mul nearestLogOfTwo).add (t.mul logOfTwo.rest)
  let z := u.add v
  let w := v.sub (z.sub u)
  let square := z.mul z
  let c := z.sub (square.mul (polynomial exponentialCoefficients square))
  let quotient := (z.mul c).div ((c.sub (ofNat 2)).sub (w.add (z.mul w)))
  (ofNat 1).sub (quotient.sub z)

def scale (k : Nat) : Number → Number
  | .finite s x => ofMagnitude s (Magnitude.nearest (x.scaled * Nat.pow 2 k) 1)
  | n => n

def half : Number :=
  dyadic false 1 1

/-- The whole number nearest to a binary logarithm, judged by its leading digits. -/
def wholeExponent (z : Number) : Nat :=
  match z.leading.add half with
  | .finite _ x => if half.less z.leading then x.whole else 0
  | _ => 0

/-- From this binary logarithm on a number is too great. -/
def exponentLimit : Number :=
  ofNat 1024

/-- How far below the limit the binary logarithm lies from which on powers round to a number that is
too great. -/
def exponentMargin : Number :=
  dyadic false 0x171547652B82FE 106

def isTooGreat (p : Parts) : Bool :=
  exponentLimit.less p.sum ||
    p.sum.equal exponentLimit && (p.sum.sub p.leading).less (p.rest.add exponentMargin)

/-- Ten to the power of a magnitude, infinite where it is too great. The exponent one half gives
the square root. -/
def powerOfTen (y : Magnitude) : Number :=
  if (finite false y).equal half then rootOfTen
  else
    let p := binaryLogOfPower (.finite false y)
    if isTooGreat p then .infinite false
    else
      let n := wholeExponent p.sum
      (powerOfTwo ⟨p.leading.sub (ofNat n), p.rest⟩).scale n

end Number

end TreeExtraction
