/-! # Spans of code points

Ranges of code points, the entries of the tables of character properties.
-/

namespace TreeExtraction

/-- A range of code points, both ends included. -/
structure Span where
  first : Nat
  last : Nat

namespace Span

def covers (s : Span) (c : Nat) : Bool :=
  s.first ≤ c && c ≤ s.last

def anyCovers (spans : List Span) (c : Nat) : Bool :=
  spans.any (·.covers c)

@[simp] theorem covers_eq_true {s : Span} {c : Nat} :
    s.covers c = true ↔ s.first ≤ c ∧ c ≤ s.last := by
  simp [covers]

end Span

end TreeExtraction
