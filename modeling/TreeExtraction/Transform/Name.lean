import TreeExtraction.Text.Basic

/-! # Names of transforms

The sixteen built-in transforms and their names, in the order in which they are listed.
-/

namespace TreeExtraction

inductive TransformName where
  | upper
  | lower
  | capitalize
  | strip
  | truncate
  | abs
  | round
  | format
  | length
  | join
  | first
  | last
  | flatten
  | str
  | int
  | float
  deriving DecidableEq

namespace TransformName

def all : List TransformName :=
  [.upper, .lower, .capitalize, .strip, .truncate, .abs, .round, .format, .length, .join, .first,
    .last, .flatten, .str, .int, .float]

def text : TransformName → Text
  | .upper => units "upper"
  | .lower => units "lower"
  | .capitalize => units "capitalize"
  | .strip => units "strip"
  | .truncate => units "truncate"
  | .abs => units "abs"
  | .round => units "round"
  | .format => units "format"
  | .length => units "length"
  | .join => units "join"
  | .first => units "first"
  | .last => units "last"
  | .flatten => units "flatten"
  | .str => units "str"
  | .int => units "int"
  | .float => units "float"

def ofText? (t : Text) : Option TransformName :=
  all.find? fun n => n.text == t

end TransformName

end TreeExtraction
