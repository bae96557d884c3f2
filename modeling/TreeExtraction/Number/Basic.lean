/-! # Double-precision numbers

A number is a binary floating point number of double precision: not a number, one of the two
infinities, or a sign and a finite magnitude. A magnitude counts multiples of the least positive
one, so that finite magnitudes are compared and combined as natural numbers.
-/

namespace TreeExtraction

/-- A finite magnitude `mantissa * 2 ^ exponent`, in units of `2 ^ (-1074)`. The mantissa is below
`2 ^ 53`, and not below `2 ^ 52` unless the exponent is least, so each magnitude has one form. -/
structure Magnitude where
  mantissa : Nat
  exponent : Nat
  mantissa_lt : mantissa < 0x20000000000000
  exponent_le : exponent ≤ 2045
  normal : 0x10000000000000 ≤ mantissa ∨ exponent = 0
  deriving DecidableEq

namespace Magnitude

/-- How many least positive magnitudes make up the value one. -/
def unitsPerOne : Nat := Nat.pow 2 1074

/-- The magnitude as a multiple of the least positive one. -/
def scaled (x : Magnitude) : Nat :=
  x.mantissa * Nat.pow 2 x.exponent

/-- The magnitude with a mantissa and an exponent that fit. -/
def ofParts? (m e : Nat) : Option Magnitude :=
  if h : m < 0x20000000000000 ∧ e ≤ 2045 ∧ (0x10000000000000 ≤ m ∨ e = 0) then
    some ⟨m, e, h.1, h.2.1, h.2.2⟩
  else none

def zero : Magnitude := ⟨0, 0, by decide, by decide, .inr rfl⟩

def isZero (x : Magnitude) : Bool :=
  x.mantissa == 0

def whole (x : Magnitude) : Nat :=
  x.scaled / unitsPerOne

def fraction (x : Magnitude) : Nat :=
  x.scaled % unitsPerOne

def isWhole (x : Magnitude) : Bool :=
  x.fraction == 0

end Magnitude

inductive Number where
  | nan
  | infinite (negative : Bool)
  | finite (negative : Bool) (magnitude : Magnitude)
  deriving DecidableEq

namespace Number

def zero : Number := .finite false .zero

def isFinite : Number → Bool
  | .finite .. => true
  | _ => false

def isZero : Number → Bool
  | .finite _ x => x.isZero
  | _ => false

def isNegative : Number → Bool
  | .nan => false
  | .infinite s => s
  | .finite s _ => s

/-- A finite number as a signed multiple of the least positive magnitude. -/
def scaled? : Number → Option Int
  | .finite s x => some (if s then -(x.scaled : Int) else x.scaled)
  | _ => none

def toInt? : Number → Option Int
  | .finite s x => if x.isWhole then some (if s then -(x.whole : Int) else x.whole) else none
  | _ => none

def isInteger (n : Number) : Bool :=
  n.toInt?.isSome

/-- Numeric equality: zeros of both signs are equal, and not-a-number equals nothing. -/
def equal : Number → Number → Bool
  | .finite s x, .finite t y => (s == t && x == y) || (x.isZero && y.isZero)
  | .infinite s, .infinite t => s == t
  | _, _ => false

/-- Sameness of a look-up: numeric equality, and not-a-number is the same as itself. -/
def same : Number → Number → Bool
  | .nan, .nan => true
  | a, b => equal a b

/-- Numeric order; nothing is related to not-a-number. -/
def less : Number → Number → Bool
  | .nan, _ => false
  | _, .nan => false
  | .infinite s, .infinite t => s && !t
  | .infinite s, .finite .. => s
  | .finite .., .infinite t => !t
  | .finite s x, .finite t y =>
    decide ((if s then -(x.scaled : Int) else x.scaled) <
      (if t then -(y.scaled : Int) else y.scaled))

def negate : Number → Number
  | .nan => .nan
  | .infinite s => .infinite !s
  | .finite s x => .finite (!s) x

def abs : Number → Number
  | .nan => .nan
  | .infinite _ => .infinite false
  | .finite _ x => .finite false x

end Number

end TreeExtraction
