import TreeExtraction.Extraction.Spec
import TreeExtraction.Filter.Serialized
import TreeExtraction.Transform.Serialized

/-! # Serialized extraction specifications

A text is a path, a mapping with the key of a stage is a structured specification, a function of
the host stands for itself and every other value is a literal. Writing refuses what would read back
as something else.
-/

namespace TreeExtraction.Spec

def isStructured : Value → Bool
  | .mapping es _ => es.any fun e => (Stage.ofText? e.1).isSome
  | _ => false

def compilePath (stage : Stage) (raw : Value) : Except Failure (Option Text) :=
  match raw with
  | .undefined => .ok none
  | .null => .ok none
  | .text t => do
    let _ ← Path.read t
    return some t
  | v => .error (.spec (.pathKind stage v.kind))

/-- Reads a stage that absent values leave out. -/
def compileStage {α : Type} (compile : Value → Except Failure α) (raw : Value) :
    Except Failure (Option α) :=
  if raw.isNull then .ok none else some <$> compile raw

/-- The default of a specification; only an undefined one is no default. -/
def compileDefault : Value → Option Value
  | .undefined => none
  | v => some v

section

variable [PureHost] [Validator]

def compileStages (es : Entries) : Except Failure Stages :=
  match (es.map (·.1)).filter fun k => (Stage.ofText? k).isNone with
  | [] => do
    let raw (s : Stage) : Value := Entries.get es s.text
    let path ← compilePath .path (raw .path)
    let fallback ← compilePath .fallback (raw .fallback)
    let transform ← compileStage Transform.compile (raw .transform)
    let filter ← compileStage Predicate.compile (raw .filter)
    let map ← compileStage MapSpec.compile (raw .map)
    return { path, fallback, default := compileDefault (raw .default), transform, filter, map }
  | unknown => .error (.spec (.stageKeys unknown))

def compile (raw : Value) : Except Failure Spec :=
  match raw with
  | .text t => .ok (.path t)
  | .function f _ _ => .ok (.callable f)
  | .undefined => .ok (.literal .null)
  | .mapping es ancestry =>
    if isStructured (.mapping es ancestry) then .structured <$> compileStages es
    else .ok (.literal (.mapping es ancestry))
  | v => .ok (.literal v)

end

/-- The entry of a stage, if it is there. -/
def entry (s : Stage) (v : Option Value) : Entries :=
  match v with
  | some x => [(s.text, x)]
  | none => []

def serializeStages (s : Stages) : Except Failure Value := do
  let transform ← s.transform.mapM Transform.serialize
  return .mapping <|
    entry .path (s.path.map .text) ++ entry .fallback (s.fallback.map .text) ++
      entry .default s.default ++ entry .transform transform ++
      entry .filter (s.filter.map Predicate.serialize) ++ entry .map (s.map.map MapSpec.serialize)

def serialize : Spec → Except Failure Value
  | .path t => .ok (.text t)
  | .callable _ => .error (.spec .callable)
  | .literal (.text t) => .error (.spec (.literalText t))
  | .literal v => if isStructured v then .error (.spec .literalStages) else .ok v
  | .structured s => serializeStages s

end TreeExtraction.Spec
