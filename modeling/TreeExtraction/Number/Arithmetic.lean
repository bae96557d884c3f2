import TreeExtraction.Number.Rounding

/-! # Arithmetic

Sums, products and quotients are the exact result rounded once. Truncation, floor and nearest
integer are exact; a zero that they yield keeps the sign of their argument.
-/

namespace TreeExtraction.Number

/-- The sum; an exact cancellation is positive zero. -/
def add : Number → Number → Number
  | .nan, _ => .nan
  | _, .nan => .nan
  | .infinite s, .infinite t => if s == t then .infinite s else .nan
  | .infinite s, .finite .. => .infinite s
  | .finite .., .infinite t => .infinite t
  | .finite s x, .finite t y =>
    let sum : Int := (if s then -(x.scaled : Int) else x.scaled) +
      (if t then -(y.scaled : Int) else y.scaled)
    if sum = 0 then .finite (s && t) .zero
    else ofMagnitude (decide (sum < 0)) (Magnitude.nearest sum.natAbs 1)

def sub (a b : Number) : Number :=
  add a b.negate

def mul : Number → Number → Number
  | .nan, _ => .nan
  | _, .nan => .nan
  | .infinite s, .infinite t => .infinite (s != t)
  | .infinite s, .finite t y => if y.isZero then .nan else .infinite (s != t)
  | .finite s x, .infinite t => if x.isZero then .nan else .infinite (s != t)
  | .finite s x, .finite t y =>
    ofMagnitude (s != t) (Magnitude.nearest (x.scaled * y.scaled) Magnitude.unitsPerOne)

def div : Number → Number → Number
  | .nan, _ => .nan
  | _, .nan => .nan
  | .infinite _, .infinite _ => .nan
  | .infinite s, .finite t _ => .infinite (s != t)
  | .finite s _, .infinite t => .finite (s != t) .zero
  | .finite s x, .finite t y =>
    if y.isZero then if x.isZero then .nan else .infinite (s != t)
    else ofMagnitude (s != t) (Magnitude.ofRatio x.scaled y.scaled)

def wholeOf (negative : Bool) (n : Nat) : Number :=
  ofRatio negative n 1

def truncate : Number → Number
  | .finite s x => wholeOf s x.whole
  | n => n

def floor : Number → Number
  | .finite s x => wholeOf s (if s && !x.isWhole then x.whole + 1 else x.whole)
  | n => n

def roundHalfUp : Number → Number
  | .finite false x => wholeOf false (roundUp x.scaled Magnitude.unitsPerOne)
  | .finite true x =>
    wholeOf true ((2 * x.scaled + Magnitude.unitsPerOne - 1) / (2 * Magnitude.unitsPerOne))
  | n => n

def isEven (n : Number) : Bool :=
  match n.toInt? with
  | some k => k % 2 == 0
  | none => false

/-- The number, or positive zero if it is below. -/
def clampBelow (n : Number) : Number :=
  if n.isNegative then zero else n

end TreeExtraction.Number
