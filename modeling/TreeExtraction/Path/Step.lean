import TreeExtraction.Failure.Basic
import TreeExtraction.Number.Arithmetic
import TreeExtraction.Number.Notation

/-! # Paths

A path is a list of access steps: named attributes, positions and keys. `Path.write` renders steps
as path text. A key stands between double quotes, between single quotes if it holds a double
quote, and bare if it holds both; a key that cannot stand bare either has no path text.
-/

namespace TreeExtraction

inductive Step where
  | attribute (name : Text)
  | index (n : Number)
  | key (k : Text)
  deriving DecidableEq

namespace Path

def isSpace (u : UInt16) : Bool :=
  u == unit ' ' || u == unit '\t' || u == unit '\n'

def isQuote (u : UInt16) : Bool :=
  u == unit '"' || u == unit '\''

/-- Units that begin an index rather than a bare key. -/
def isIndexStart (u : UInt16) : Bool :=
  u == unit '-' || Text.isDigit u

def isBareUnit (u : UInt16) : Bool :=
  u != unit ']' && !isSpace u

/-- Whether a key can stand in brackets without quotes. -/
def isBareKey : Text → Bool
  | [] => false
  | u :: rest => !isIndexStart u && !isQuote u && (u :: rest).all isBareUnit

def bracketed (t : Text) : Text :=
  unit '[' :: (t ++ [unit ']'])

/-- The accessor of a key, if it has one. -/
def writeKey? (k : Text) : Option Text :=
  if k.all (· != unit '"') then some (bracketed (unit '"' :: (k ++ [unit '"'])))
  else if k.all (· != unit '\'') then some (bracketed (singleQuoted k))
  else if isBareKey k then some (bracketed k)
  else none

def writeStep (isFirst : Bool) : Step → Except Failure Text
  | .attribute n => .ok (if isFirst then n else unit '.' :: n)
  | .index n => .ok (bracketed n.toText)
  | .key k =>
    match writeKey? k with
    | some t => .ok t
    | none => .error (.spec (.keyQuotes k))

def writeRest : List Step → Except Failure Text
  | [] => .ok []
  | s :: rest => do
    let first ← writeStep false s
    let others ← writeRest rest
    return first ++ others

def write : List Step → Except Failure Text
  | [] => .ok []
  | s :: rest => do
    let first ← writeStep true s
    let others ← writeRest rest
    return first ++ others

/-- The name, position or key of a step as it stands in a list. -/
def stepText : Step → Text
  | .attribute n => Text.quoted n
  | .index n => if n.isFinite then n.toText else units "null"
  | .key k => Text.quoted k

/-- The path text of steps, or the list of their names, positions and keys where there is none. -/
def describe (steps : List Step) : Text :=
  match write steps with
  | .ok t => t
  | .error _ => bracketed (Text.join [unit ','] (steps.map stepText))

end Path

end TreeExtraction
