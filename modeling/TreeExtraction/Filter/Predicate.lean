import TreeExtraction.Filter.Operator
import TreeExtraction.Value.Basic

/-! # Predicates

A predicate is a condition on the field at a path, or built from predicates by the connectives. A
condition compares for equality or runs operator tests that must all hold. A field whose name is
that of an operator may also test an item itself, if the item is a scalar. Places of a list of
clauses can be empty, as they can be in arrays.
-/

namespace TreeExtraction

structure Test where
  operator : Operator
  operand : Value

inductive Condition where
  | equals (value : Value)
  | tests (ts : List Test)

inductive Predicate where
  | field (path : Text) (condition : Condition) (selfOperator : Option Operator)
  | all (clauses : List (Option Predicate))
  | any (clauses : List (Option Predicate))
  | negation (clause : Predicate)

end TreeExtraction
