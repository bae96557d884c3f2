import TreeExtraction.Path.Evaluation
import TreeExtraction.Value.Rendering

/-! # Templates

A template is any value. Its texts may hold placeholders, each from a dollar sign with an opening
brace to the next closing brace, scanned from left to right; what is left open is plain text. The
expression of a placeholder is a path into a binding. A text that is one placeholder becomes the
value itself, every other text is put together from its literal parts and the texts of the values.
-/

namespace TreeExtraction

def placeholderOpening : Text := [unit '$', unit '\x7b']

/-- A text cut at its placeholders: each expression with the literal text before it, and the
literal text at the end. -/
structure Segments where
  pieces : List (Text × Text)
  tail : Text

namespace Segments

def push (literal expression : Text) (s : Segments) : Segments :=
  ⟨(literal, expression) :: s.pieces, s.tail⟩

/-- Where the scan stands: in literal text, or in an expression behind literal text. What has been
passed is kept in reverse. -/
inductive Scan where
  | literal (passed : Text)
  | expression (literal passed : Text)

def scan : Scan → Text → Segments
  | .literal passed, [] => ⟨[], passed.reverse⟩
  | .expression literal passed, [] =>
    ⟨[], literal.reverse ++ placeholderOpening ++ passed.reverse⟩
  | .literal passed, u :: rest =>
    match passed with
    | d :: before =>
      if d == unit '$' && u == unit '\x7b' then scan (.expression before []) rest
      else scan (.literal (u :: passed)) rest
    | [] => scan (.literal [u]) rest
  | .expression literal passed, u :: rest =>
    if u == unit '\x7d' then (scan (.literal []) rest).push literal.reverse passed.reverse
    else scan (.expression literal (u :: passed)) rest

def ofText (t : Text) : Segments :=
  scan (.literal []) t

end Segments

namespace Template

section

variable [PureHost]

/-- The value of an expression; an empty one is the empty text. -/
def resolve (expression : Text) (binding : Value) : Except Failure Value :=
  match Text.trim expression with
  | [] => .ok (.text [])
  | path => Path.extract binding path

/-- Puts a text together from segments. -/
def assemble (binding : Value) (tail : Text) : List (Text × Text) → Except Failure Text
  | [] => .ok tail
  | (literal, expression) :: pieces => do
    let v ← resolve expression binding
    let t ← v.insertedText
    let rest ← assemble binding tail pieces
    return literal ++ t ++ rest

/-- A text with its placeholders filled in. -/
def substituteText (t : Text) (binding : Value) : Except Failure Value :=
  match Segments.ofText t with
  | ⟨[([], expression)], []⟩ => resolve expression binding
  | ⟨pieces, tail⟩ => .text <$> assemble binding tail pieces

mutual

/-- A template with its placeholders filled in. Keys of mappings are kept. -/
def substitute (binding : Value) : Value → Except Failure Value
  | .text t => substituteText t binding
  | .array vs _ => (.array · {}) <$> substituteItems binding vs
  | .mapping es _ => (.mapping ·) <$> substituteEntries binding es
  | v => .ok v

/-- Items with their placeholders filled in. Empty places stay empty. -/
def substituteItems (binding : Value) :
    List (Option Value) → Except Failure (List (Option Value))
  | [] => .ok []
  | none :: vs => do
    let rest ← substituteItems binding vs
    return none :: rest
  | some v :: vs => do
    let first ← substitute binding v
    let rest ← substituteItems binding vs
    return some first :: rest

/-- Entries with the placeholders of their values filled in. -/
def substituteEntries (binding : Value) : List (Text × Value) → Except Failure Entries
  | [] => .ok []
  | (k, v) :: es => do
    let first ← substitute binding v
    let rest ← substituteEntries binding es
    return (k, first) :: rest

end

end

end Template

/-- The mapping of a collection: a template for each item, and the name by which the template
refers to the item. -/
structure MapSpec where
  template : Value
  itemName : Option Text := none

namespace MapSpec

def templateKey : Text := units "template"

def itemNameKey : Text := units "variable"

def usualItemName : Text := units "item"

section

variable [PureHost]

def compile (raw : Value) : Except Failure MapSpec :=
  match raw with
  | .mapping es _ =>
    match (es.map (·.1)).filter fun k => k != templateKey && k != itemNameKey with
    | [] =>
      match Entries.get es templateKey, Entries.get es itemNameKey with
      | .undefined, _ => .error (.spec .mapTemplate)
      | template, .undefined => .ok { template }
      | template, .text name =>
        if Text.isIdentifier name then .ok { template, itemName := some name }
        else .error (.spec (.mapVariable name))
      | _, v => do
        let t ← v.insertedText
        .error (.spec (.mapVariable t))
    | unknown => .error (.spec (.mapKeys unknown))
  | v => .error (.spec (.mapKind v.kind))

end

def serialize (m : MapSpec) : Value :=
  match m.itemName with
  | none => .mapping [(templateKey, m.template)]
  | some name => .mapping [(templateKey, m.template), (itemNameKey, .text name)]

section

variable [PureHost]

/-- Fills the template in for each item. Empty places stay empty. -/
def mapItems (m : MapSpec) : List (Option Value) → Except Failure (List (Option Value))
  | [] => .ok []
  | none :: vs => do
    let rest ← m.mapItems vs
    return none :: rest
  | some v :: vs => do
    let first ← Template.substitute (.mapping [(m.itemName.getD usualItemName, v)]) m.template
    let rest ← m.mapItems vs
    return some first :: rest

def apply (m : MapSpec) (items : Value) : Except Failure Value :=
  match items with
  | .array vs _ =>
    match m.template with
    | .undefined => .error (.spec .mapTemplate)
    | _ => (.array · {}) <$> m.mapItems vs
  | v => .error (.structural (.mapOver v.kind))

end

end MapSpec

end TreeExtraction
