import TreeExtraction.Text.Basic

/-! # Filter operators

The fifteen operators that test a field value against an operand, and their names in the order in
which they are listed.
-/

namespace TreeExtraction

inductive Operator where
  | isIn
  | isNotIn
  | startsWith
  | endsWith
  | contains
  | matches
  | eq
  | ne
  | gt
  | gte
  | lt
  | lte
  | isNone
  | isNotNone
  | hasKind
  deriving DecidableEq

namespace Operator

def all : List Operator :=
  [.isIn, .isNotIn, .startsWith, .endsWith, .contains, .matches, .eq, .ne, .gt, .gte, .lt, .lte,
    .isNone, .isNotNone, .hasKind]

def text : Operator → Text
  | .isIn => units "in"
  | .isNotIn => units "not_in"
  | .startsWith => units "startswith"
  | .endsWith => units "endswith"
  | .contains => units "contains"
  | .matches => units "matches"
  | .eq => units "eq"
  | .ne => units "ne"
  | .gt => units "gt"
  | .gte => units "gte"
  | .lt => units "lt"
  | .lte => units "lte"
  | .isNone => units "is_none"
  | .isNotNone => units "is_not_none"
  | .hasKind => units "type"

def ofText? (t : Text) : Option Operator :=
  all.find? fun o => o.text == t

end Operator

end TreeExtraction
