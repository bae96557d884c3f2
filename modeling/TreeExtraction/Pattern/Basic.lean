import TreeExtraction.Text.Basic

/-! # Patterns

Search patterns over the units of a text: literals, classes, groups, repetitions, references to
what a group has taken, and conditions on the place. Groups are numbered by their opening
parentheses.
-/

namespace TreeExtraction.Pattern

inductive ClassItem where
  | range (first last : UInt16)
  | digits (negated : Bool)
  | words (negated : Bool)
  | blanks (negated : Bool)

def isWordUnit (u : UInt16) : Bool :=
  Text.isIdentifierPart u

def ClassItem.has (u : UInt16) : ClassItem → Bool
  | .range first last => first ≤ u && u ≤ last
  | .digits negated => Text.isDigit u != negated
  | .words negated => isWordUnit u != negated
  | .blanks negated => Text.isBlank u != negated

def isLineEnd (u : UInt16) : Bool :=
  u == unit '\n' || u == unit '\r' || u == 0x2028 || u == 0x2029

/-- A pattern. A caseless part matches units that differ in letter case only. A repetition knows the
first group inside it and the first one behind it: what these groups have taken is forgotten on
every round. -/
inductive Node where
  | nothing
  | literal (caseless : Bool) (u : UInt16)
  | anyOfLine
  | anyUnit
  | oneOf (caseless negated : Bool) (items : List ClassItem)
  | sequence (a b : Node)
  | choice (a b : Node)
  | group (number : Nat) (body : Node)
  | repetition (least : Nat) (most : Option Nat) (greedy : Bool) (firstGroup nextGroup : Nat)
    (body : Node)
  | reference (caseless : Bool) (number : Nat)
  | namedReference (caseless : Bool) (name : Text)
  | textStart
  | textEnd
  | lineStart
  | lineEnd
  | wordBoundary (negated : Bool)
  | look (ahead negated : Bool) (body : Node)

end TreeExtraction.Pattern
