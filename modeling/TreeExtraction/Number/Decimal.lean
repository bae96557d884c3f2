import TreeExtraction.Number.Rounding
import TreeExtraction.Text.Digits

/-! # Decimal digits of a number

`Magnitude.shortest` finds the fewest decimal digits that read back as the magnitude and, among
those, the nearest. `Magnitude.significant` rounds to a count of digits and `Magnitude.places` to a
count of digits after the point; in both a tie goes up.
-/

namespace TreeExtraction

/-- Decimal digits `d₁ d₂ …` with the meaning `0.d₁d₂… * 10 ^ point`. -/
structure Decimal where
  digits : List Nat
  point : Int

namespace Magnitude

def digitCount (n : Nat) : Nat :=
  (Text.digits 10 n).length

/-- The `p` with `10 ^ (p - 1) ≤ x < 10 ^ p`, for a positive magnitude. -/
def point (x : Magnitude) : Int :=
  if unitsPerOne ≤ x.scaled then digitCount x.whole
  else 1 - (digitCount ((unitsPerOne + x.scaled - 1) / x.scaled - 1) : Int)

def overPower (x : Magnitude) (place : Int) : Nat × Nat :=
  if 0 ≤ place then (x.scaled, unitsPerOne * Nat.pow 10 place.toNat)
  else (x.scaled * Nat.pow 10 (-place).toNat, unitsPerOne)

/-- Whether `s * 10 ^ place` reads back as the magnitude. -/
def readsBack (x : Magnitude) (s : Nat) (place : Int) : Bool :=
  ofDecimal s place == some x

/-- The neighbour of a magnitude on the grid of `10 ^ place` that reads back, the nearer one if
both do, the even one of two equally near. -/
def onGrid? (x : Magnitude) (place : Int) : Option Nat :=
  let (a, d) := x.overPower place
  let s := a / d
  match x.readsBack s place, x.readsBack (s + 1) place with
  | true, true => some (roundEven a d)
  | true, false => some s
  | false, true => some (s + 1)
  | false, false => none

/-- Digits of a significand on the grid of `10 ^ place`, without the zeros at their end. -/
def decimalOf (s : Nat) (place : Int) : Decimal :=
  let ds := Text.digits 10 s
  ⟨(ds.reverse.dropWhile (· == 0)).reverse, place + ds.length⟩

/-- The first grid, from `count` digits on, that has a point reading back. -/
def shortestFrom (x : Magnitude) : (tries count : Nat) → Decimal
  | 0, count => decimalOf (x.overPower (x.point - count)).1 (x.point - count)
  | tries + 1, count =>
    match x.onGrid? (x.point - count) with
    | some s => decimalOf s (x.point - count)
    | none => shortestFrom x tries (count + 1)

/-- The fewest digits that read back as the magnitude; none for zero. -/
def shortest (x : Magnitude) : Decimal :=
  if x.isZero then ⟨[], 0⟩ else shortestFrom x 17 1

/-- The magnitude rounded to `count` significant digits, all of them written. -/
def significant (x : Magnitude) (count : Nat) : Decimal :=
  if x.isZero then ⟨List.replicate count 0, 1⟩
  else
    let (a, d) := x.overPower (x.point - count)
    let ds := Text.digits 10 (roundUp a d)
    ⟨ds.take count, x.point + ds.length - count⟩

/-- The magnitude in units of `10 ^ (-count)`, rounded to an integer. -/
def places (x : Magnitude) (count : Nat) : Nat :=
  roundUp (x.scaled * Nat.pow 10 count) unitsPerOne

end Magnitude

end TreeExtraction
