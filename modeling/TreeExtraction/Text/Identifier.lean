import TreeExtraction.Text.IdentifierTable

/-! # Identifiers

Code points that can begin an identifier, and those that can continue one.
-/

namespace TreeExtraction.Identifier

/-- Whether a code point can begin an identifier. -/
def isStart (c : Nat) : Bool :=
  Span.anyCovers startSpans c

/-- Whether a code point can stand in an identifier behind its first one. -/
def isPart (c : Nat) : Bool :=
  isStart c || Span.anyCovers continueSpans c

end TreeExtraction.Identifier
