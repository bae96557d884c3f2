import TreeExtraction.Text.Basic

/-! # Digit texts

Numerals of natural numbers and integers. `digits` writes a number in a base, most significant
digit first and without leading zeros; `ofDigits` reads a digit list back.
-/

namespace TreeExtraction.Text

/-- Puts the digits of a number in front of a digit list, at most `limit` of them. -/
def pushDigits (base : Nat) : (limit : Nat) → Nat → List Nat → List Nat
  | 0, _, acc => acc
  | limit + 1, n, acc =>
    if n < base then n :: acc else pushDigits base limit (n / base) (n % base :: acc)

/-- The digits of a number in a base of at least two; zero has one digit. -/
def digits (base n : Nat) : List Nat :=
  pushDigits base (n.log2 + 1) n []

def ofDigits (base : Nat) (ds : List Nat) : Nat :=
  ds.foldl (fun n d => base * n + d) 0

/-- The unit that writes a digit below sixteen. -/
def digitUnit (d : Nat) : UInt16 :=
  if d < 10 then unit '0' + d.toUInt16 else unit 'a' + (d - 10).toUInt16

def digitValue (u : UInt16) : Nat :=
  (u - unit '0').toNat

/-- The numeral of a number in a base of at most sixteen. -/
def ofNatBase (base n : Nat) : Text :=
  (digits base n).map digitUnit

def ofNat (n : Nat) : Text :=
  ofNatBase 10 n

/-- The decimal numeral of an integer, with a minus sign below zero. -/
def ofInt (n : Int) : Text :=
  if n < 0 then unit '-' :: ofNat n.natAbs else ofNat n.natAbs

def toNat (t : Text) : Nat :=
  ofDigits 10 (t.map digitValue)

def padZeros (length : Nat) (t : Text) : Text :=
  List.replicate (length - t.length) (unit '0') ++ t

/-- The number that a text names as a position of a list, if it is such a name: a numeral without
leading zeros, below `2 ^ 32 - 1`. -/
def position? (t : Text) : Option Nat :=
  if !t.isEmpty && t.length ≤ 10 && t.all isDigit && ofNat (toNat t) == t
      && toNat t < 0xFFFFFFFF then some (toNat t)
  else none

end TreeExtraction.Text
