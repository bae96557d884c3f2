import TreeExtraction.Extraction.Run
import TreeExtraction.Extraction.Serialized
import TreeExtraction.Filter.Evaluation
import TreeExtraction.Transform.Application

/-! # Extraction

A structured specification runs its stages in order: path, fallback, default, transform, filter,
map. A filter sees the transformed value and a map the filtered list. Nothing is done to an absent
value. A filter or a map of a value that is no array is skipped with a warning.
-/

namespace TreeExtraction.Spec

variable [PureHost]

def runPath (source : Value) : Option Text → Except Failure Value
  | some t => Path.extract source t
  | none => .ok .null

def runFallback (source : Value) (fallback : Option Text) (v : Value) : Except Failure Value :=
  match fallback with
  | some t => if v.isNull then Path.extract source t else .ok v
  | none => .ok v

/-- The value found so far, or the default. -/
def runDefault (default : Option Value) (v : Value) : Value :=
  match default with
  | some d => if v.isNull then d else v
  | none => v

def runTransform (transform : Option Transform) (v : Value) : Except Failure Value :=
  match transform with
  | some t => if v.isNull then .ok v else t.apply v
  | none => .ok v

/-- An operation on the items of the value found so far. It is skipped for an absent value, and
with a warning for a value that is no array. -/
def runItems {α : Type} (stage : Stage) (operation : α → Value → Except Failure Value)
    (setting : Option α) (v : Value) : Run Value :=
  match setting with
  | some a =>
    match v with
    | .array .. => .lift (operation a v)
    | _ =>
      if v.isNull then pure v
      else do
        .warn ⟨stage.text, v.kind⟩
        return v
  | none => pure v

def runStages (source : Value) (s : Stages) : Run Value := do
  let found ← .lift (runPath source s.path)
  let found ← .lift (runFallback source s.fallback found)
  let value ← .lift (runTransform s.transform (runDefault s.default found))
  let value ← runItems .filter Predicate.filterValue s.filter value
  let value ← runItems .map MapSpec.apply s.map value
  return value.orNull

/-- Runs a specification on a source. A path that does not parse is literal text. -/
def run (source : Value) : Spec → Run Value
  | .callable f => .lift (Value.orNull <$> PureHost.answer f .undefined [source])
  | .literal v => pure v
  | .path t =>
    match Path.read t with
    | .ok steps => .lift (Path.follow source steps (some t))
    | .error _ => pure (.text t)
  | .structured s => runStages source s

def extract [Validator] (source raw : Value) : Run Value := do
  let spec ← .lift (compile raw)
  spec.run source

end TreeExtraction.Spec
