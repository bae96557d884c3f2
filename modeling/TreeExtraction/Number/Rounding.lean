import TreeExtraction.Number.Basic

/-! # Rounding to double precision

Every operation computes its exact value as a quotient of natural numbers and then takes the
nearest number, a tie going to the even mantissa. `Magnitude.nearest` is that one rounding step.
-/

namespace TreeExtraction

/-- The integer nearest to a quotient, a tie going to the even one. -/
def roundEven (a d : Nat) : Nat :=
  if 2 * (a % d) < d then a / d
  else if d < 2 * (a % d) then a / d + 1
  else if a / d % 2 = 0 then a / d
  else a / d + 1

/-- The integer nearest to a quotient, a tie going up. -/
def roundUp (a d : Nat) : Nat :=
  (2 * a + d) / (2 * d)

namespace Magnitude

/-- The magnitude nearest to `a / d` units, a tie going to the even mantissa; none past the
greatest. -/
def nearest (a d : Nat) : Option Magnitude :=
  let e := (a / d).log2 - 52
  let m := roundEven a (d * Nat.pow 2 e)
  if m = 0x20000000000000 then ofParts? 0x10000000000000 (e + 1) else ofParts? m e

def ofRatio (a d : Nat) : Option Magnitude :=
  nearest (a * unitsPerOne) d

def ofDecimal (s : Nat) (place : Int) : Option Magnitude :=
  if 0 ≤ place then ofRatio (s * Nat.pow 10 place.toNat) 1
  else ofRatio s (Nat.pow 10 (-place).toNat)

end Magnitude

namespace Number

def ofMagnitude (negative : Bool) : Option Magnitude → Number
  | some x => .finite negative x
  | none => .infinite negative

def ofRatio (negative : Bool) (a d : Nat) : Number :=
  ofMagnitude negative (Magnitude.ofRatio a d)

def ofNat (n : Nat) : Number :=
  ofRatio false n 1

/-- The number nearest to an integer; zero is positive. -/
def ofInt (n : Int) : Number :=
  ofRatio (decide (n < 0)) n.natAbs 1

/-- The number nearest to `s * 10 ^ place`, with a sign. Exponents far outside the range of
numbers are decided without computing the power. -/
def ofDecimal (negative : Bool) (s : Nat) (place : Int) : Number :=
  if s = 0 then .finite negative .zero
  else if 400 < place then .infinite negative
  else if place + s.log2 + 400 < 0 then .finite negative .zero
  else ofMagnitude negative (Magnitude.ofDecimal s place)

end Number

end TreeExtraction
