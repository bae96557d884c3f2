import TreeExtraction.Text.Basic
import TreeExtraction.Text.CasingTable

/-! # Letter case

Upper and lower case of texts by code point. Sigma at the end of a word has a lower case form of
its own, so lowering looks at the neighbours of each code point; everything else is a mapping of
single code points. Surrogates that stand alone have no case.
-/

namespace TreeExtraction

namespace Casing

/-- The image of a code point under a table of expansions and a table of shifts. -/
def mapWith (expansions : List (Nat × List Nat)) (shifts : List Shift) (c : Nat) : List Nat :=
  match expansions.lookup c with
  | some cs => cs
  | none =>
    match shifts.find? (·.covers c) with
    | some s => [((c : Int) + s.distance).toNat]
    | none => [c]

/-- Upper case of a code point. -/
def upperOf (c : Nat) : List Nat :=
  mapWith upperExpansions upperShifts c

/-- Lower case of a code point away from the end of a word. -/
def lowerOf (c : Nat) : List Nat :=
  mapWith lowerExpansions lowerShifts c

/-- Whether the nearest code point that is not ignorable is a cased letter. -/
def meetsLetter (cs : List Nat) : Bool :=
  match cs.dropWhile (Span.anyCovers ignorableSpans) with
  | [] => false
  | c :: _ => Span.anyCovers casedSpans c

def sigma : Nat := 0x3A3

/-- The small sigma that ends a word. -/
def finalSigma : Nat := 0x3C2

/-- Lower case of code points, those before them given in reverse. -/
def lowerFrom (previous : List Nat) : List Nat → List Nat
  | [] => []
  | c :: rest =>
    (if c == sigma && meetsLetter previous && !meetsLetter rest then [finalSigma]
      else lowerOf c) ++ lowerFrom (c :: previous) rest

end Casing

namespace Text

def toUpper (t : Text) : Text :=
  (codePoints t).flatMap fun p => (Casing.upperOf (scalar p)).flatMap encode

def toLower (t : Text) : Text :=
  (Casing.lowerFrom [] ((codePoints t).map scalar)).flatMap encode

end Text

end TreeExtraction
