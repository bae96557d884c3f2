import TreeExtraction.Number.Arithmetic
import TreeExtraction.Text.Casing
import TreeExtraction.Value.Rendering

/-! # Text transforms

Letter case, stripping and truncation. The case transforms take arrays item by item. Truncation
measures code points, so that surrogate pairs are never split.
-/

namespace TreeExtraction

inductive TextTransform where
  | upper
  | lower
  | capitalize
  | strip
  deriving DecidableEq

namespace TextTransform

def name : TextTransform → Text
  | .upper => units "upper"
  | .lower => units "lower"
  | .capitalize => units "capitalize"
  | .strip => units "strip"

def onText (f : TextTransform) (t : Text) : Text :=
  match f with
  | .upper => Text.toUpper t
  | .lower => Text.toLower t
  | .capitalize => Text.toUpper (t.take 1) ++ Text.toLower (t.drop 1)
  | .strip => Text.trim t

mutual

def apply (f : TextTransform) : Value → Except Failure Value
  | .text t => .ok (.text (f.onText t))
  | .array items _ => do
    let mapped ← applyItems f items
    return .array mapped {}
  | v =>
    .error (.mismatch (.input f.name (units "string") v.kind) { transform := some f.name })

/-- The transform of the items of an array; absent ones are null, and empty places stay empty. -/
def applyItems (f : TextTransform) :
    List (Option Value) → Except Failure (List (Option Value))
  | [] => .ok []
  | none :: vs => do
    let rest ← applyItems f vs
    return none :: rest
  | some v :: vs => do
    let first ← if v.isNull then .ok .null else apply f v
    let rest ← applyItems f vs
    return some first :: rest

end

end TextTransform

/-- How many items a slice with the given length holds at most. -/
def Number.sliceLength : Number → Nat
  | .finite false x => x.whole
  | _ => 0

/-- Whether a count is at most a number. -/
def Number.admits (limit : Number) (count : Nat) : Bool :=
  match limit with
  | .nan => false
  | .infinite negative => !negative
  | .finite negative x => if negative then x.isZero && count == 0 else count ≤ x.whole

/-- Whether a number is at most a count. -/
def Number.isWithin (n : Number) (count : Nat) : Bool :=
  match n with
  | .nan => false
  | .infinite negative => negative
  | .finite negative x => negative || x.whole < count || (x.whole == count && x.isWhole)

namespace Text

def takePoints (t : Text) (n : Nat) : Text :=
  ((codePoints t).take n).flatten

/-- The text cut to a length in code points. Where something is cut, the result ends with the
suffix, or with as much of the suffix as the length admits. -/
def truncate (t : Text) (maxLength : Number) (suffix : Text) : Text :=
  if maxLength.admits (codePoints t).length then t
  else if maxLength.isWithin 0 then []
  else
    let size := (codePoints suffix).length
    if maxLength.isWithin size then takePoints suffix maxLength.sliceLength
    else takePoints t (maxLength.sliceLength - size) ++ suffix

end Text

def usualLength : Number := .ofNat 50

def usualSuffix : Text := units "…"

def truncateValue [PureHost] (v : Value) (maxLength : Option Number) (suffix : Option Text) :
    Except Failure Text := do
  let t ← v.toText
  return Text.truncate t (maxLength.getD usualLength) (suffix.getD usualSuffix)

end TreeExtraction
