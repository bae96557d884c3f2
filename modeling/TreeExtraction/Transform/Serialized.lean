import TreeExtraction.Schema.Validator
import TreeExtraction.Transform.Basic

/-! # Serialized transforms

A transform is serialized as its bare name, or as a mapping of its name and its parameters. A
mapping may hold the parameters of its transform only.
-/

namespace TreeExtraction.Transform

def maxLengthKey : Text := units "max_length"

def suffixKey : Text := units "suffix"

def digitsKey : Text := units "digits"

def formatSpecKey : Text := units "format_spec"

def separatorKey : Text := units "separator"

def depthKey : Text := units "depth"

def nameKey : Text := units "name"

section

variable [Validator]

open Validator

/-- What the mapping of a transform holds beside its name. -/
def parameterShape : TransformName → Shape Schema BuiltinTransform
  | .upper => .done .upper
  | .lower => .done .lower
  | .capitalize => .done .capitalize
  | .strip => .done .strip
  | .truncate =>
    .entry maxLengthKey (optional (integer number))
      (.entry suffixKey (optional text) (.done fun suffix maxLength => .truncate maxLength suffix))
  | .abs => .done .abs
  | .round => .entry digitsKey (optional (integer number)) (.done .round)
  | .format => .entry formatSpecKey (optional text) (.done .format)
  | .length => .done .length
  | .join => .entry separatorKey (optional text) (.done .join)
  | .first => .done .first
  | .last => .done .last
  | .flatten => .entry depthKey (optional (integer number)) (.done .flatten)
  | .str => .done .str
  | .int => .done .int
  | .float => .done .float

def shape (name : TransformName) : Shape Schema BuiltinTransform :=
  .entry nameKey (literal name.text) ((parameterShape name).map fun b _ => b)

def schema : Schema BuiltinTransform :=
  oneOf nameKey (TransformName.all.map fun name => (name.text, object (shape name)))

def compileMapping (es : Entries) (ancestry : Ancestry) : Except Failure Transform :=
  match Entries.get es nameKey with
  | .text [] => .error (.spec .transformName)
  | .text t =>
    match TransformName.ofText? t with
    | none => .error (.spec (.unknownTransform t) { transform := some t })
    | some _ =>
      match safeParse schema (.mapping es ancestry) with
      | .ok b => .ok (.builtin b)
      | .error is => .error (.spec (.transformParameters t is) { transform := some t })
  | _ => .error (.spec .transformName)

/-- Reads a serialized transform; a function of the host stands for itself. -/
def compile (raw : Value) : Except Failure Transform :=
  match raw with
  | .function f _ _ => .ok (.custom f)
  | .text t => compileMapping [(nameKey, .text t)] .ordinary
  | .mapping es ancestry => compileMapping es ancestry
  | _ => .error (.spec (.transformKind raw.kind))

end

def entry {α : Type} (key : Text) (value : α → Value) (a : Option α) : Entries :=
  match a with
  | some x => [(key, value x)]
  | none => []

def parameters : BuiltinTransform → Entries
  | .truncate n s => entry maxLengthKey .number n ++ entry suffixKey .text s
  | .round n => entry digitsKey .number n
  | .format t => entry formatSpecKey .text t
  | .join t => entry separatorKey .text t
  | .flatten n => entry depthKey .number n
  | _ => []

/-- The serialized form of a built-in transform: its bare name if it has no parameters. -/
def serializeBuiltin (b : BuiltinTransform) : Value :=
  match parameters b with
  | [] => .text b.name.text
  | ps => .mapping ((nameKey, .text b.name.text) :: ps)

def serialize : Transform → Except Failure Value
  | .builtin b => .ok (serializeBuiltin b)
  | .custom _ => .error (.spec .customTransform)

end TreeExtraction.Transform
