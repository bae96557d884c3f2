import TreeExtraction.Number.Decimal
import TreeExtraction.Number.Power

/-! # Rounding half to even

Rounding to a count of decimal places. The decision is made on the decimal expansion of the number
to a hundred places, so only true ties go to the even neighbour. Negative counts round to tens,
hundreds and so on. Places finer than the number can hold leave it as it is. Counts need not be
whole, and powers of ten are those of `Number.powerOfTen`.
-/

namespace TreeExtraction.Rounding

/-- Places of the expansion on which rounding is decided. -/
def exactPlaces : Nat := 100

/-- From this magnitude on every number is an integer. -/
def integralMagnitude : Number := .ofNat 0x10000000000000

/-- The nearest integer of a scaled number; a tie that the fraction shows goes to the even one. -/
def nearestEven (scaled : Number) : Number :=
  let floor := scaled.floor
  if (scaled.sub floor).equal .half then
    if floor.isEven then floor else floor.add (.ofNat 1)
  else scaled.roundHalfUp

def toTens (n : Number) (power : Number) : Number :=
  if power.isFinite then (nearestEven (n.div power)).mul power else n.mul .zero

/-- The magnitude as a count of units in the given place, a tie going to the even count. -/
def unitsAt (x : Magnitude) (digits : Nat) : Nat :=
  roundEven (x.places exactPlaces) (Nat.pow 10 (exactPlaces - digits))

/-- A number rounded to at most a hundred places. A count of places that is not whole keeps the
whole part of it of the expansion, and divides by its own power of ten. -/
def toPlaces (n : Number) (digits : Magnitude) : Number :=
  match n with
  | .finite negative x =>
    let factor := Number.powerOfTen digits
    if !(Number.mul (.finite false x) factor).less integralMagnitude then n
    else
      let magnitude := (Number.ofNat (unitsAt x digits.whole)).div factor
      if negative then magnitude.negate else magnitude
  | _ => n

def halfEven (n : Number) (digits : Number) : Number :=
  if !n.isFinite || n.isZero then n
  else
    match digits with
    | .nan => .nan
    | .infinite negative => if negative then n.mul .zero else n
    | .finite negative x =>
      if negative && !x.isZero then toTens n (.powerOfTen x)
      else if Number.less (.ofNat exactPlaces) digits then n
      else toPlaces n x

end TreeExtraction.Rounding
