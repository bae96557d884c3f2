import TreeExtraction.Number.Basic
import TreeExtraction.Transform.Name
import TreeExtraction.Value.Basic

/-! # Transforms

A transform is a built-in one with its parameters, or a function of the host, given by its identity.
Parameters that are not given are left to the transform.
-/

namespace TreeExtraction

inductive BuiltinTransform where
  | upper
  | lower
  | capitalize
  | strip
  | truncate (maxLength : Option Number) (suffix : Option Text)
  | abs
  | round (digits : Option Number)
  | format (specifier : Option Text)
  | length
  | join (separator : Option Text)
  | first
  | last
  | flatten (depth : Option Number)
  | str
  | int
  | float
  deriving DecidableEq

def BuiltinTransform.name : BuiltinTransform → TransformName
  | .upper => .upper
  | .lower => .lower
  | .capitalize => .capitalize
  | .strip => .strip
  | .truncate .. => .truncate
  | .abs => .abs
  | .round _ => .round
  | .format _ => .format
  | .length => .length
  | .join _ => .join
  | .first => .first
  | .last => .last
  | .flatten _ => .flatten
  | .str => .str
  | .int => .int
  | .float => .float

inductive Transform where
  | builtin (b : BuiltinTransform)
  | custom (f : Nat)
  deriving DecidableEq

end TreeExtraction
