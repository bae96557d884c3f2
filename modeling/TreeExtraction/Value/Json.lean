import TreeExtraction.Number.Notation
import TreeExtraction.Text.Quoted
import TreeExtraction.Value.Date
import TreeExtraction.Value.Host

/-! # Structure texts

A structure is written as JSON without spaces. Numbers that are not finite become null, dates
become their calendar text, and maps and sets show no entries. Absent values, functions and symbols
are left out of mappings and are null in arrays, as are empty places. The answer of a method
`toJSON` is written in place of its object. Big integers cannot be written.
-/

namespace TreeExtraction.Value

/-- Name of the method whose answer is written in place of an object. -/
def writerName : Text := units "toJSON"

def enclosed (opening closing : UInt16) (parts : List Text) : Text :=
  opening :: (Text.join [unit ','] parts ++ [closing])

def inBraces (parts : List Text) : Text :=
  enclosed (unit '\x7b') (unit '\x7d') parts

section

variable [PureHost]

/-- The text of a value that stands at a key: what `answered` makes of the answer of its method, or
what is written for it if it has none. -/
def jsonBy (answered : Value → Except Failure (Option Text)) (key : Text) (v : Value)
    (written : Except Failure (Option Text)) : Except Failure (Option Text) :=
  match v.method? writerName with
  | some f => PureHost.answer f v [.text key] >>= answered
  | none => written

mutual

/-- The JSON text of a value that is not asked for what to write in its place; none for what is
left out. -/
def jsonBody (answered : Value → Except Failure (Option Text)) :
    Value → Except Failure (Option Text)
  | .undefined | .symbol .. | .function .. => .ok none
  | .null => .ok (some (units "null"))
  | .bool b => .ok (some (units (if b then "true" else "false")))
  | .number n => .ok (some (if n.isFinite then n.toText else units "null"))
  | .bigint _ => .error .unsupported
  | .text t => .ok (some (Text.quoted t))
  | .array items _ => do
    let parts ← jsonItems answered 0 items
    return some (enclosed (unit '[') (unit ']') parts)
  | .mapping es ancestry =>
    if ancestry = .parentOfDates ∧ ¬Table.has es writerName then .error .unsupported
    else do
      let parts ← jsonEntries answered es
      return some (inBraces parts)
  | .date ms frame =>
    if Table.has frame.members writerName then jsonFrame answered frame
    else .ok (some (Text.quoted (Date.isoText ms)))
  | .invalidDate _ frame =>
    if Table.has frame.members writerName then jsonFrame answered frame
    else .ok (some (units "null"))
  | .map _ frame | .set _ _ frame | .object _ frame => jsonFrame answered frame

def jsonItems (answered : Value → Except Failure (Option Text)) (position : Nat) :
    List (Option Value) → Except Failure (List Text)
  | [] => .ok []
  | none :: vs => do
    let rest ← jsonItems answered (position + 1) vs
    return units "null" :: rest
  | some v :: vs => do
    let first ← jsonBy answered (Text.ofNat position) v (jsonBody answered v)
    let rest ← jsonItems answered (position + 1) vs
    return first.getD (units "null") :: rest

def jsonEntries (answered : Value → Except Failure (Option Text)) :
    List (Text × Value) → Except Failure (List Text)
  | [] => .ok []
  | (k, v) :: es => do
    let first ← jsonBy answered k v (jsonBody answered v)
    let rest ← jsonEntries answered es
    match first with
    | some t => return (Text.quoted k ++ unit ':' :: t) :: rest
    | none => return rest

def jsonFrame (answered : Value → Except Failure (Option Text)) :
    Frame Value → Except Failure (Option Text)
  | ⟨_, fields, _, _⟩ => do
    let parts ← jsonEntries answered fields
    return some (inBraces parts)

end

/-- The JSON text of an answer, from which at most `depth` calls may follow one another. -/
def jsonAnswer : (depth : Nat) → Value → Except Failure (Option Text)
  | 0, _ => .error .outOfRange
  | depth + 1, v => jsonBody (jsonAnswer depth) v

/-- The JSON text of a value that stands at a key; none for what is left out. -/
def json (key : Text) (v : Value) : Except Failure (Option Text) :=
  jsonBy (jsonAnswer PureHost.callDepth) key v (jsonBody (jsonAnswer PureHost.callDepth) v)

end

end TreeExtraction.Value
