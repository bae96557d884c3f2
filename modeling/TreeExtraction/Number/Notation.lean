import TreeExtraction.Number.Decimal

/-! # Number texts

The texts of numbers: the shortest one, a fixed count of places, a count of significant digits,
scientific notation and integers in a base. Positional notation reaches from `10 ^ (-7)` up to
`10 ^ 21`; beyond that an exponent is written with its sign.
-/

namespace TreeExtraction

namespace Decimal

def text (d : Decimal) : Text :=
  d.digits.map Text.digitUnit

/-- An exponent with its sign, at least one digit. -/
def exponentText (e : Int) : Text :=
  unit 'e' :: (if e < 0 then unit '-' else unit '+') :: Text.ofNat e.natAbs

/-- Scientific notation: one digit, the others after a point, and the exponent. -/
def scientific (d : Decimal) : Text :=
  match d.text with
  | [] => []
  | u :: rest =>
    u :: ((if rest.isEmpty then [] else unit '.' :: rest) ++ exponentText (d.point - 1))

def positional (d : Decimal) : Text :=
  if d.point ≤ 0 then
    units "0." ++ List.replicate (-d.point).toNat (unit '0') ++ d.text
  else if d.text.length ≤ d.point.toNat then
    d.text ++ List.replicate (d.point.toNat - d.text.length) (unit '0')
  else d.text.take d.point.toNat ++ unit '.' :: d.text.drop d.point.toNat

end Decimal

namespace Magnitude

/-- The shortest text that reads back as the magnitude. -/
def toText (x : Magnitude) : Text :=
  if x.isZero then [unit '0']
  else
    let d := x.shortest
    if -6 < d.point && d.point ≤ 21 then d.positional else d.scientific

/-- The text with `count` digits after the point; from `10 ^ 21` on the shortest text. -/
def fixedText (x : Magnitude) (count : Nat) : Text :=
  if Nat.pow 10 21 ≤ x.whole then x.toText
  else
    let t := Text.padZeros (count + 1) (Text.ofNat (x.places count))
    if count = 0 then t else t.take (t.length - count) ++ unit '.' :: t.drop (t.length - count)

/-- Scientific notation with `count` digits after the point. -/
def scientificText (x : Magnitude) (count : Nat) : Text :=
  (x.significant (count + 1)).scientific

/-- The text with `count` significant digits: positional unless the exponent is below `-6` or
reaches the count. -/
def precisionText (x : Magnitude) (count : Nat) : Text :=
  let d := x.significant count
  if d.point < -5 || (count : Int) < d.point then d.scientific else d.positional

end Magnitude

namespace Number

/-- The text of a number. Zero has no sign. -/
def toText : Number → Text
  | .nan => units "NaN"
  | .infinite s => units (if s then "-Infinity" else "Infinity")
  | .finite s x => if s && !x.isZero then unit '-' :: x.toText else x.toText

end Number

end TreeExtraction
