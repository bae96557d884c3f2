import TreeExtraction.Text.Digits

/-! # Error contexts

Where an extraction went wrong: the node field, the type of the node, the transform, the operator,
the path and the step of the path. Contexts are filled in on the way out, and what is known
further inside is kept.
-/

namespace TreeExtraction

/-- What is known about the place of an error. -/
structure Context where
  field : Option Text := none
  nodeType : Option Text := none
  transform : Option Text := none
  operator : Option Text := none
  path : Option Text := none
  stepIndex : Option Nat := none
  deriving DecidableEq

namespace Context

/-- The inner context, completed by the outer one. -/
def fill (inner outer : Context) : Context where
  field := inner.field.or outer.field
  nodeType := inner.nodeType.or outer.nodeType
  transform := inner.transform.or outer.transform
  operator := inner.operator.or outer.operator
  path := inner.path.or outer.path
  stepIndex := inner.stepIndex.or outer.stepIndex

/-- The known entries with their names, in the order in which they are written. -/
def entries (c : Context) : List (Text × Text) :=
  [(units "field", c.field), (units "nodeType", c.nodeType), (units "transform", c.transform),
    (units "operator", c.operator), (units "path", c.path),
    (units "stepIndex", c.stepIndex.map Text.ofNat)].filterMap
      fun (name, value) => value.map fun v => (name, v)

/-- The context in brackets after a message; nothing when nothing is known. -/
def text (c : Context) : Text :=
  match c.entries with
  | [] => []
  | es =>
    units " [" ++ Text.join (units ", ") (es.map fun (k, v) => k ++ unit '=' :: v) ++ [unit ']']

end Context

end TreeExtraction
