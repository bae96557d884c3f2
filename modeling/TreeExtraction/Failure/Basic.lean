import TreeExtraction.Failure.Cause
import TreeExtraction.Failure.Context
import TreeExtraction.Value.Basic

/-! # Failures

A failure is an error with a cause and a context, or one of the failures that no context is added
to: whatever else a function of the host throws, an operation outside its range, a pattern that
cannot be read, an operation on something that does not support it, such as the text of what has
none, and a sample that does not exist.
-/

namespace TreeExtraction

inductive Failure where
  | report (cause : Cause) (context : Context)
  | thrown (v : Value)
  | outOfRange
  | badPattern
  | unsupported
  | unknownSample (name : Text) (available : List Text)

namespace Failure

def within (outer : Context) : Failure → Failure
  | .report cause inner => .report cause (inner.fill outer)
  | f => f

/-- The error text, context included; none for failures that have no text of their own. -/
def message? : Failure → Option Text
  | .report cause context => some (cause.detail ++ context.text)
  | .unknownSample n ns =>
    some (units "Unknown fixture: " ++ n ++ units ". Available: " ++ commaList ns)
  | _ => none

/-- A path error, which names its path. -/
def path (problem : PathProblem) (path : Text) : Failure :=
  .report (.path problem path) { path := some path }

def mismatch (m : Mismatch) (context : Context := {}) : Failure :=
  .report (.mismatch m) context

def spec (p : SpecProblem) (context : Context := {}) : Failure :=
  .report (.spec p) context

def structural (p : StructureProblem) (context : Context := {}) : Failure :=
  .report (.structural p) context

end Failure

def inContext {α : Type} (outer : Context) (r : Except Failure α) : Except Failure α :=
  r.mapError (Failure.within outer)

end TreeExtraction
