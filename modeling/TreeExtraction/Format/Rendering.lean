import TreeExtraction.Format.Specifier
import TreeExtraction.Number.Arithmetic
import TreeExtraction.Text.Casing
import TreeExtraction.Value.Rendering

/-! # Formatting by a specifier

Numbers are written by sign, radix mark and magnitude, digits grouped in threes where this is
asked for; other values by their text, cut to the precision. The result is then padded to the
width. Fixed and scientific notation reach to a hundred places.
-/

namespace TreeExtraction.Format

def placesLimit : Nat := 100

def lengthLimit : Nat := 0x1FFFFFE8

/-- Exponents of one digit get a zero in front. -/
def padExponent (t : Text) : Text :=
  match t.reverse with
  | d :: s :: e :: rest =>
    if e == unit 'e' && (s == unit '+' || s == unit '-') && Text.isDigit d then
      (d :: unit '0' :: s :: e :: rest).reverse
    else t
  | _ => t

/-- The zeros that end a fraction are dropped, and the point with them if nothing is left behind
it. -/
def stripZeros (t : Text) : Text :=
  if t.any (· == unit '.') && t.all (· != unit 'e') then
    match t.reverse.dropWhile (· == unit '0') with
    | u :: rest => if u == unit '.' then rest.reverse else (u :: rest).reverse
    | [] => []
  else t

/-- A separator before each group of three digits counted from the right end, never in front. -/
def groupDigits (separator : UInt16) : Text → Text
  | [] => []
  | u :: rest =>
    if rest.length % 3 = 0 && !rest.isEmpty then u :: separator :: groupDigits separator rest
    else u :: groupDigits separator rest

/-- The digits at the start of a text, grouped, and the rest of it. -/
def groupLeading (separator : UInt16) (t : Text) : Text :=
  groupDigits separator (t.takeWhile Text.isDigit) ++ t.dropWhile Text.isDigit

/-- A text that depends on a count of places, if there are not too many of them. -/
def withPlaces (count : Nat) (text : Nat → Text) : Except Failure Text :=
  if placesLimit < count then .error .outOfRange else .ok (text count)

/-- A magnitude with a count of significant digits, without the zeros that end its fraction. -/
def generalText (x : Magnitude) (precision : Nat) : Except Failure Text :=
  withPlaces (max precision 1) fun count => padExponent (stripZeros (x.precisionText count))

def percentText (x : Magnitude) (precision : Nat) : Except Failure Text :=
  withPlaces precision fun count =>
    match Number.mul (.finite false x) (.ofNat 100) with
    | .finite _ y => y.fixedText count ++ [unit '%']
    | n => n.toText ++ [unit '%']

def magnitudeText (s : Specifier) (x : Magnitude) : Except Failure Text :=
  match s.code with
  | some .decimal => .ok (Text.ofNat x.whole)
  | some .fixed | some .fixedUpper => withPlaces (s.precision.getD 6) x.fixedText
  | some .scientific =>
    withPlaces (s.precision.getD 6) fun count => padExponent (x.scientificText count)
  | some .scientificUpper =>
    withPlaces (s.precision.getD 6) fun count =>
      Text.toUpper (padExponent (x.scientificText count))
  | some .general => generalText x (s.precision.getD 6)
  | some .generalUpper => Text.toUpper <$> generalText x (s.precision.getD 6)
  | some .percent => percentText x (s.precision.getD 6)
  | some .hex => .ok (Text.ofNatBase 16 x.whole)
  | some .hexUpper => .ok (Text.toUpper (Text.ofNatBase 16 x.whole))
  | some .octal => .ok (Text.ofNatBase 8 x.whole)
  | some .binary => .ok (Text.ofNatBase 2 x.whole)
  | some .text | none =>
    match s.precision with
    | some p => generalText x p
    | none => .ok (padExponent x.toText)

def unsignedText (s : Specifier) (n : Number) : Except Failure Text :=
  let named (t : Text) : Text := if (s.code.map Code.isUpper).getD false then Text.toUpper t else t
  match n with
  | .nan => .ok (named (units "nan"))
  | .infinite _ => .ok (named (units "inf"))
  | .finite _ x => magnitudeText s x

def radixMark (s : Specifier) : Text :=
  if s.alternate then
    match s.code with
    | some .hex => units "0x"
    | some .hexUpper => units "0X"
    | some .octal => units "0o"
    | some .binary => units "0b"
    | _ => []
  else []

def pad (s : Specifier) (mark body : Text) (usual : Alignment) : Except Failure Text :=
  let missing := s.leastLength - (mark.length + body.length)
  if lengthLimit < missing + (mark.length + body.length) && missing != 0 then .error .outOfRange
  else
    let fill (count : Nat) : Text := List.replicate count s.fillUnit
    .ok <|
      match s.alignment?.getD usual with
      | .left => mark ++ body ++ fill missing
      | .right => fill missing ++ mark ++ body
      | .inside => mark ++ fill missing ++ body
      | .center => fill (missing / 2) ++ mark ++ body ++ fill (missing - missing / 2)

def formatContext : Context := { transform := some (units "format") }

/-- What stands in front of the digits of a number: its sign and the mark of the radix. -/
def numberMark (s : Specifier) (n : Number) : Text :=
  (if n.isNegative then [unit '-'] else s.positiveSign) ++ radixMark s

/-- The digits of a number, grouped where this is asked for. -/
def numberBody (s : Specifier) (n : Number) : Except Failure Text := do
  let body ← unsignedText s n
  match s.grouping with
  | some g => return groupLeading g.unit body
  | none => return body

def formatNumber (s : Specifier) (n : Number) : Except Failure Text :=
  match s.code with
  | some .text => .error (.mismatch .textCode formatContext)
  | code =>
    match code.filter fun c => c.needsInteger && !n.isInteger with
    | some c => .error (.mismatch (.fraction c.unit n.toText) formatContext)
    | none => do
      let body ← numberBody s n
      pad s (numberMark s n) body .right

section

variable [PureHost]

def bodyText (s : Specifier) (v : Value) : Except Failure Text :=
  match s.precision with
  | some p => (·.take p) <$> v.toText
  | none => v.insertedText

def formatText (s : Specifier) (v : Value) : Except Failure Text :=
  match s.code.filter (· != .text) with
  | some c => .error (.mismatch (.numberCode c.unit v.kind) formatContext)
  | none =>
    if s.alignment? = some .inside then .error (.spec (.signAlignment v.kind) formatContext)
    else do
      let body ← bodyText s v
      pad s [] body .left

def formatBy (s : Specifier) (v : Value) : Except Failure Text :=
  match v with
  | .number n => formatNumber s n
  | _ => formatText s v

/-- Formats a value by a specifier text; the empty one gives the plain text, which may be
missing. -/
def formatWith (v : Value) (specifier : Text) : Except Failure (Option Text) :=
  if specifier.isEmpty then v.toText?
  else
    match Specifier.read specifier with
    | some s => some <$> formatBy s v
    | none => .error (.spec (.formatSyntax specifier) formatContext)

end

end TreeExtraction.Format
