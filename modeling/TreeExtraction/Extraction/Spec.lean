import TreeExtraction.Filter.Predicate
import TreeExtraction.Template
import TreeExtraction.Transform.Basic

/-! # Extraction specifications

A specification is a literal value, a path, a function of the host, given by its identity, or a
structured one: up to six stages, each of which may be missing.
-/

namespace TreeExtraction

structure Stages where
  path : Option Text := none
  fallback : Option Text := none
  default : Option Value := none
  transform : Option Transform := none
  filter : Option Predicate := none
  map : Option MapSpec := none

/-- How the value of a field is extracted from a source. -/
inductive Spec where
  | literal (value : Value)
  | path (text : Text)
  | callable (f : Nat)
  | structured (stages : Stages)

end TreeExtraction
