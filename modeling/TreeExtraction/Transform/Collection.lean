import TreeExtraction.Number.Arithmetic
import TreeExtraction.Value.Rendering

/-! # Collection transforms

Length, joining, first and last item, and flattening. Arrays, maps and sets are sequences of
items; an entry of a map is an array of its key and its value. Empty places of an array are read as
undefined, but flattening passes over those of arrays that it takes apart on the way down.
-/

namespace TreeExtraction.Collection

def wrongInput {α : Type} (name expected : String) (v : Value) : Except Failure α :=
  .error (.mismatch (.input (units name) (units expected) v.kind)
    { transform := some (units name) })

def entryItems (es : List (Key Value × Value)) : List Value :=
  es.map fun (k, v) => .list [.ofKey k, v]

def items? : Value → Option (List Value)
  | .array vs _ => some (Value.reading vs)
  | .map es _ => some (entryItems es)
  | .set _ vs _ => some vs
  | _ => none

/-- The items of a sequence. What all sets inherit from is taken for a sequence but has no items. -/
def sequence (name expected : String) (v : Value) : Except Failure (List Value) :=
  match items? v with
  | some vs => .ok vs
  | none =>
    match v with
    | .mapping _ .parentOfSets => .error .unsupported
    | _ => wrongInput name expected v

theorem sequence_eq_ok {name expected : String} {v : Value} {vs : List Value} :
    sequence name expected v = .ok vs ↔ items? v = some vs := by
  rw [sequence.eq_def]
  split
  · next hitems => simp [hitems]
  · next hitems =>
    rw [hitems]
    split <;> simp [wrongInput]

def length (v : Value) : Except Failure Nat :=
  match v with
  | .text t => .ok (Text.codePoints t).length
  | .array vs _ => .ok vs.length
  | .map es _ => .ok es.length
  | .set _ vs _ => .ok vs.length
  | .mapping es _ => .ok es.length
  | _ => wrongInput "length" "sized collection" v

/-- The texts of the items with a separator between them; a missing text is empty. -/
def join [PureHost] (v : Value) (separator : Text) : Except Failure Text := do
  let vs ← sequence "join" "non-string iterable" v
  let ts ← vs.mapM Value.toText?
  return Text.join separator (ts.map (·.getD []))

/-- The first item, null where there is none; a text gives its first code point. -/
def first (v : Value) : Except Failure Value :=
  match v with
  | .text t => .ok (((Text.codePoints t).head?.map Value.text).getD .null)
  | .array vs _ => .ok ((Value.reading vs).head?.getD .null)
  | _ => do
    let vs ← sequence "first" "indexable or iterable" v
    return (vs.head?.getD .null).orNull

/-- The last item, null where there is none; a text gives its last code point. -/
def last (v : Value) : Except Failure Value :=
  match v with
  | .text t => .ok (((Text.codePoints t).getLast?.map Value.text).getD .null)
  | .array vs _ => .ok ((Value.reading vs).getLast?.getD .null)
  | _ => do
    let vs ← sequence "last" "indexable or iterable" v
    return (vs.getLast?.getD .null).orNull

mutual

/-- An item with its nested arrays spliced in, to a depth or all the way down. -/
def splice (depth : Option Nat) : Value → List Value
  | .array vs frame =>
    match depth with
    | none => splicePresent none vs
    | some 0 => [.array vs frame]
    | some 1 => Value.reading vs
    | some (n + 2) => splicePresent (some (n + 1)) vs
  | v => [v]

/-- The items at the places of an array that are not empty, with their nested arrays spliced in. -/
def splicePresent (depth : Option Nat) : List (Option Value) → List Value
  | [] => []
  | none :: vs => splicePresent depth vs
  | some v :: vs => splice depth v ++ splicePresent depth vs

end

/-- Items with their nested arrays spliced in, to a depth or all the way down. -/
def spliceAll (depth : Option Nat) (vs : List Value) : List Value :=
  vs.flatMap (splice depth)

/-- The depth that a number asks for; all the way down unless it is a natural number. -/
def depthOf (n : Number) : Option Nat :=
  match n.toInt? with
  | some i => if 0 ≤ i then some i.toNat else none
  | none => none

/-- The items of a sequence with nested arrays spliced in. -/
def flatten (v : Value) (depth : Number) : Except Failure (List Value) := do
  let vs ← sequence "flatten" "non-string iterable" v
  return spliceAll (depthOf depth) vs

end TreeExtraction.Collection
