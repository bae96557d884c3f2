import TreeExtraction.Format.Rendering
import TreeExtraction.Transform.Basic
import TreeExtraction.Transform.Collection
import TreeExtraction.Transform.Conversion
import TreeExtraction.Transform.Rounding
import TreeExtraction.Transform.Text

/-! # Applying transforms

Every built-in transform checks the kind of its input and names itself in its errors. An absent
value is null under every transform, and nothing is applied to it.
-/

namespace TreeExtraction

def BuiltinTransform.number (b : BuiltinTransform) (v : Value) : Except Failure Number :=
  match v with
  | .number n => .ok n
  | _ =>
    .error (.mismatch (.input b.name.text (units "number") v.kind)
      { transform := some b.name.text })

variable [PureHost]

def BuiltinTransform.run (b : BuiltinTransform) (v : Value) : Except Failure Value :=
  match b with
  | .upper => TextTransform.upper.apply v
  | .lower => TextTransform.lower.apply v
  | .capitalize => TextTransform.capitalize.apply v
  | .strip => TextTransform.strip.apply v
  | .truncate n s => .text <$> truncateValue v n s
  | .abs => do
    let n ← b.number v
    return .number n.abs
  | .round digits => do
    let n ← b.number v
    return .number (Rounding.halfEven n (digits.getD .zero))
  | .format t =>
    match v with
    | .bool _ =>
      .error (.mismatch (.input b.name.text (units "number or string") v.kind)
        { transform := some b.name.text })
    | _ => .textOrUndefined <$> Format.formatWith v (t.getD [])
  | .length => do
    let n ← Collection.length v
    return .number (.ofNat n)
  | .join separator => .text <$> Collection.join v (separator.getD [])
  | .first => Collection.first v
  | .last => Collection.last v
  | .flatten depth => .list <$> Collection.flatten v (depth.getD (.ofNat 1))
  | .str => .textOrUndefined <$> v.toText?
  | .int => .number <$> Conversion.toInteger v
  | .float => Conversion.toFloat v

def Transform.apply (t : Transform) (v : Value) : Except Failure Value :=
  if v.isNull then .ok .null
  else
    match t with
    | .custom f => PureHost.answer f .undefined [v]
    | .builtin b => inContext { transform := some b.name.text } (b.run v)

end TreeExtraction
