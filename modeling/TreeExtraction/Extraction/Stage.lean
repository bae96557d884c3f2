import TreeExtraction.Text.Basic

/-! # Stages of an extraction

The six stages of a structured extraction, in the order in which they run. A mapping is read as a
structured extraction as soon as it has the name of a stage among its keys.
-/

namespace TreeExtraction

inductive Stage where
  | path
  | fallback
  | default
  | transform
  | filter
  | map
  deriving DecidableEq

namespace Stage

def all : List Stage :=
  [.path, .fallback, .default, .transform, .filter, .map]

def text : Stage → Text
  | .path => units "path"
  | .fallback => units "fallback"
  | .default => units "default"
  | .transform => units "transform"
  | .filter => units "filter"
  | .map => units "map"

def ofText? (t : Text) : Option Stage :=
  all.find? fun s => s.text == t

end Stage

end TreeExtraction
