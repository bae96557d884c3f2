import TreeExtraction.Number.Arithmetic
import TreeExtraction.Text.Casing
import TreeExtraction.Value.Inherited
import TreeExtraction.Value.Rendering

/-! # Conversion to numbers

An integer text is a sign and decimal digits; a number text has an optional fraction and exponent
as well. Blanks around either are passed over. A few words name the infinities and not-a-number.
The words are looked up in a table that also answers to its inherited names.
-/

namespace TreeExtraction.Conversion

/-- Takes a sign; the first part tells whether it is a minus. -/
def takeSign : Text → Bool × Text
  | [] => (false, [])
  | u :: rest =>
    if u == unit '-' then (true, rest)
    else if u == unit '+' then (false, rest)
    else (false, u :: rest)

def isDigits (t : Text) : Bool :=
  !t.isEmpty && t.all Text.isDigit

/-- A signed number that is a multiple of a power of ten. -/
structure Numeral where
  negative : Bool
  significand : Nat
  exponent : Int

def Numeral.toNumber (n : Numeral) : Number :=
  .ofDecimal n.negative n.significand n.exponent

/-- An integer text without blanks. -/
def readInteger (t : Text) : Option Numeral :=
  let (negative, ds) := takeSign t
  if isDigits ds then some ⟨negative, Text.toNat ds, 0⟩ else none

def isExponentMark (u : UInt16) : Bool :=
  u == unit 'e' || u == unit 'E'

def readExponent : Text → Option Int
  | [] => some 0
  | u :: rest =>
    if isExponentMark u then
      let (negative, ds) := takeSign rest
      if isDigits ds then some (if negative then -(Text.toNat ds : Int) else Text.toNat ds)
      else none
    else none

/-- The digits before a point and those behind it, if there is a point, and the rest of the text. -/
def takeMantissa (t : Text) : Text × Text × Text :=
  let whole := t.takeWhile Text.isDigit
  match t.dropWhile Text.isDigit with
  | [] => (whole, [], [])
  | u :: rest =>
    if u == unit '.' then (whole, rest.takeWhile Text.isDigit, rest.dropWhile Text.isDigit)
    else (whole, [], u :: rest)

/-- A number text without blanks. -/
def readDecimal (t : Text) : Option Numeral :=
  let (negative, t) := takeSign t
  let (whole, fraction, after) := takeMantissa t
  if (whole ++ fraction).isEmpty then none
  else
    (readExponent after).map fun e =>
      ⟨negative, Text.toNat (whole ++ fraction), e - fraction.length⟩

def words : Table Number :=
  [("inf", .infinite false), ("+inf", .infinite false), ("-inf", .infinite true),
    ("infinity", .infinite false), ("+infinity", .infinite false), ("-infinity", .infinite true),
    ("nan", .nan)].map fun (w, n) => (units w, n)

def lookUp (word : Text) : Option Value :=
  match Table.lookUp words word with
  | .own n => some (.number n)
  | .inherited i => some i.value
  | .absent => none

def ofBool (b : Bool) : Number :=
  .ofNat b.toNat

section

variable [PureHost]

def failed {α : Type} (name expected : String) (v : Value) : Except Failure α := do
  let t ← v.insertedText
  .error (.mismatch (.conversion (units name) (units expected) t v.kind)
    { transform := some (units name) })

def toInteger (v : Value) : Except Failure Number :=
  match v with
  | .bool b => .ok (ofBool b)
  | .number n => if n.isFinite then .ok n.truncate else failed "int" "integer-like" v
  | .text t =>
    match readInteger (Text.trim t) with
    | some n => .ok n.toNumber
    | none => failed "int" "integer-like" v
  | _ => failed "int" "integer-like" v

def toFloat (v : Value) : Except Failure Value :=
  match v with
  | .bool b => .ok (.number (ofBool b))
  | .number n => .ok (.number n)
  | .text t =>
    match readDecimal (Text.trim t) with
    | some n => .ok (.number n.toNumber)
    | none =>
      match lookUp (Text.toLower (Text.trim t)) with
      | some found => .ok found
      | none => failed "float" "number-like" v
  | _ => failed "float" "number-like" v

end

end TreeExtraction.Conversion
