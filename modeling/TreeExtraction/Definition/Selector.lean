import TreeExtraction.Extraction.Serialized
import TreeExtraction.Glob
import TreeExtraction.Node.FieldName

/-! # Selection of children

The children of a node come from a specification that yields their list, or they are the candidates
found in its fields whose type matches an include pattern and no exclude pattern.
-/

namespace TreeExtraction

inductive Selector where
  | listed (spec : Spec)
  | types (included excluded : List Text)

namespace Selector

def includeKey : Text := units "include"

def excludeKey : Text := units "exclude"

def keys : List Text := [includeKey, excludeKey]

def usualInclude : List Text := [[unit '*']]

/-- Whether a value asks for a selection by type: an object with one of the keys. -/
def asksForTypes (raw : Value) : Bool :=
  raw.isObjectLike && keys.any (Table.has raw.members)

section

variable [PureHost] [Validator]

open Validator

/-- The patterns of a selection by type. -/
def schema : Schema (List Text × List Text) :=
  object (.entry includeKey (withDefault usualInclude (array text))
    (.entry excludeKey (withDefault [] (array text)) (.done fun excluded included =>
      (included, excluded))))

def compile (raw : Value) : Except Failure Selector :=
  if asksForTypes raw then
    match safeParse schema raw with
    | .ok (included, excluded) => .ok (.types included excluded)
    | .error issues => .error (.spec (.selector issues) { field := some FieldName.children.text })
  else .listed <$> Spec.compile raw

end

def serialize : Selector → Except Failure Value
  | .types included excluded =>
    .ok (.mapping [(includeKey, .list (included.map .text)),
      (excludeKey, .list (excluded.map .text))])
  | .listed spec => spec.serialize

def matchesAny (nodeType : Text) : List Text → Except Failure Bool
  | [] => .ok false
  | p :: ps =>
    match Glob.matchesText nodeType p with
    | none => .error .badPattern
    | some true => .ok true
    | some false => matchesAny nodeType ps

def admits (included excluded : List Text) (nodeType : Text) : Except Failure Bool :=
  if nodeType.isEmpty then .ok false
  else do
    if ← matchesAny nodeType included then return !(← matchesAny nodeType excluded)
    else return false

end Selector

end TreeExtraction
