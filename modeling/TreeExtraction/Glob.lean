import TreeExtraction.Pattern.Matching
import TreeExtraction.Pattern.Reader

/-! # Glob patterns

A glob pattern describes whole texts, unit by unit: a star is any run of units, a question mark is
any unit, and brackets hold a set of units and ranges, negated by an exclamation mark. A closing
bracket that comes first in a set is a member of it, a bracket that is never closed stands for
itself, and so does every other unit. A glob pattern is written as a search pattern between the
start and the end of a text, in which a point is any unit; one with a range that runs backwards
cannot be read.
-/

namespace TreeExtraction.Glob

def special : Text := units ".*+?^$\x7b\x7d()|[]\\/"

def escape (u : UInt16) : Text :=
  if u ∈ special then [unit '\\', u] else [u]

def escapeMember (u : UInt16) : Text :=
  if u == unit '\\' || u == unit ']' then [unit '\\', u] else [u]

/-- How many units at the start of a set cannot close it. -/
def openingLength : Text → Nat
  | u :: v :: _ =>
    if u == unit '!' then if v == unit ']' then 2 else 1 else if u == unit ']' then 1 else 0
  | [u] => if u == unit '!' || u == unit ']' then 1 else 0
  | [] => 0

/-- What stands between an opening bracket, which comes just before the text, and the bracket that
closes it. -/
def setBody? (t : Text) : Option Text :=
  let opening := openingLength t
  let inner := (t.drop opening).takeWhile (· != unit ']')
  if t.length ≤ opening + inner.length then none else some (t.take opening ++ inner)

/-- The search pattern of a set with the given body. A set is negated by another mark there, which
is escaped where it comes first and is a member. -/
def translateSet (body : Text) : Text :=
  let inside :=
    match body.flatMap escapeMember with
    | u :: rest =>
      if u == unit '!' then unit '^' :: rest
      else if u == unit '^' then unit '\\' :: u :: rest
      else u :: rest
    | [] => []
  unit '[' :: inside ++ [unit ']']

/-- The search pattern of a glob pattern, whose first `skipped` units are left out. -/
def translateFrom (skipped : Nat) : Text → Text
  | [] => []
  | u :: rest =>
    if skipped ≠ 0 then translateFrom (skipped - 1) rest
    else if u == unit '*' then units ".*" ++ translateFrom 0 rest
    else if u == unit '?' then units "." ++ translateFrom 0 rest
    else if u == unit '[' then
      match setBody? rest with
      | some body => translateSet body ++ translateFrom (body.length + 1) rest
      | none => units "\\[" ++ translateFrom 0 rest
    else escape u ++ translateFrom 0 rest

def translate (pattern : Text) : Text :=
  unit '^' :: translateFrom 0 pattern ++ [unit '$']

/-- The modes in which a glob pattern is read: a point matches line ends too. -/
def modes : Pattern.Modes :=
  { Pattern.Modes.initial with anyUnit := true }

/-- A glob pattern as a search pattern that can be run. -/
def expression? (pattern : Text) : Option Pattern.Node :=
  Pattern.readIn modes (translate pattern)

/-- Whether a text matches a pattern, if the pattern can be read. -/
def matchesText (value pattern : Text) : Option Bool :=
  (expression? pattern).map fun n => Pattern.matchesIn n value

end TreeExtraction.Glob
