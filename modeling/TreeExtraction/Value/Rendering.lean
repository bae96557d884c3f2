import TreeExtraction.Value.Json

/-! # Texts of values

`Value.toText?` is the text of a value in labels, templates and text tests: nothing for an absent
value, the scalar itself, and JSON for structures. A structure that JSON cannot write is spelled
out: by its methods `toString` and `valueOf` where it has them, or else arrays item by item and
other objects by their class tag. Maps are written as the mapping of their keys and have no such way
out: a map that JSON leaves out, because its entry `toJSON` answers nothing, has no text at all.
What this comes to depends on the use that is made of the text.
-/

namespace TreeExtraction.Value

/-- The text of a value that is no object; a symbol has none. -/
def plainText : Value → Except Failure Text
  | .undefined => .ok (units "undefined")
  | .null => .ok (units "null")
  | .bool b => .ok (units (if b then "true" else "false"))
  | .number n => .ok n.toText
  | .bigint n => .ok (Text.ofInt n)
  | .text t => .ok t
  | _ => .error .unsupported

/-- Whether a value can be spelled out only by what it answers. -/
def isObject : Value → Bool
  | .array .. | .function .. => true
  | v => v.isObjectLike

def spellingName : Text := units "toString"

def valueName : Text := units "valueOf"

section

variable [PureHost]

/-- What a method answers that is to give a value that is no object; none if it does not. -/
def primitiveAnswer (v : Value) (f : Nat) : Except Failure (Option Value) := do
  let answer ← PureHost.answer f v []
  return if answer.isObject then none else some answer

/-- What the member under a name gives that is no object; `common` where there is no member. -/
def primitiveBy (v : Value) (name : Text) (common : Except Failure (Option Value)) :
    Except Failure (Option Value) :=
  match Table.get? v.members name with
  | some (.function f _ _) => primitiveAnswer v f
  | some _ => .ok none
  | none => common

/-- The first that the methods of an object give that is no object: `spelling` and `value` are what
all objects of its kind give. -/
def primitiveOf (v : Value) (spelling : Except Failure (Option Value)) (value : Option Value) :
    Except Failure Value := do
  match ← primitiveBy v spellingName spelling with
  | some answer => return answer
  | none =>
    match ← primitiveBy v valueName (.ok value) with
    | some answer => return answer
    | none => .error .unsupported

def tag (s : String) : Except Failure (Option Value) :=
  .ok (some (.ofString s))

mutual

/-- The value that is no object to which a value comes down when it is spelled out. -/
def primitive : Value → Except Failure Value
  | .array items frame => primitiveOf (.array items frame)
      (do
        let parts ← spelledItems items
        return some (.text (Text.join [unit ','] parts)))
      none
  | .mapping es ancestry => primitiveOf (.mapping es ancestry)
      (match ancestry with
        | .bare => .ok none
        | .parentOfDates => .error .unsupported
        | .parentOfSets => tag "[object Set]"
        | _ => tag "[object Object]")
      none
  | .map es frame => primitiveOf (.map es frame) (tag "[object Map]") none
  | .set i items frame => primitiveOf (.set i items frame) (tag "[object Set]") none
  | .date ms frame =>
    primitiveOf (.date ms frame) (.ok (some (.text (Date.longText ms))))
      (some (.number (.ofInt ms)))
  | .invalidDate i frame =>
    primitiveOf (.invalidDate i frame) (tag "Invalid Date") (some (.number .nan))
  | .object i frame => primitiveOf (.object i frame) (tag "[object Object]") none
  | .function i source frame =>
    primitiveOf (.function i source frame) (.ok (some (.text source))) none
  | v => .ok v

def spelledItems : List (Option Value) → Except Failure (List Text)
  | [] => .ok []
  | none :: vs => do
    let rest ← spelledItems vs
    return [] :: rest
  | some v :: vs => do
    let first ← if v.isNull then .ok [] else primitive v >>= plainText
    let rest ← spelledItems vs
    return first :: rest

end

/-- A value spelled out. A symbol by itself is described. -/
def spelled (v : Value) : Except Failure Text :=
  match v with
  | .symbol _ description => .ok (units "Symbol(" ++ description ++ [unit ')'])
  | _ => v.primitive >>= plainText

/-- The key that a key of a map is in a mapping; none if it is a symbol. -/
def keyName? (k : Key Value) : Except Failure (Option Text) := do
  match ← (ofKey k).primitive with
  | .symbol .. => return none
  | v => some <$> v.plainText

/-- The plain mapping with the entries of a map, all but those under symbols. -/
def entriesOfMap (es : List (Key Value × Value)) : Except Failure Entries := do
  let named ← es.mapM fun (k, v) => do return (← keyName? k).map fun name => (name, v)
  return Table.ofList (present named)

/-- The JSON text of a structure, or the structure spelled out where there is none. -/
def written (v : Value) : Except Failure Text :=
  match json [] v with
  | .ok (some t) => .ok t
  | _ => spelled v

def ownText : Value → Except Failure Text
  | .undefined | .null => .ok []
  | .date ms _ => .ok (Date.isoText ms)
  | .invalidDate .. => .error .outOfRange
  | .array items frame => written (.array items frame)
  | .mapping es ancestry => written (.mapping es ancestry)
  | .set i items frame => written (.set i items frame)
  | .object i frame => written (.object i frame)
  | v => spelled v

/-- The text of a value; none for a map that JSON leaves out. -/
def toText? (v : Value) : Except Failure (Option Text) :=
  match v with
  | .map es _ => do
    let entries ← entriesOfMap es
    json [] (.mapping entries)
  | v => some <$> v.ownText

/-- The text of a value for an operation that needs one. -/
def toText (v : Value) : Except Failure Text := do
  match ← v.toText? with
  | some t => return t
  | none => .error .unsupported

/-- The text of a value as it is put into another text. -/
def insertedText (v : Value) : Except Failure Text := do
  let t ← v.toText?
  return t.getD (units "undefined")

end

def textOrUndefined : Option Text → Value
  | some t => .text t
  | none => .undefined

end TreeExtraction.Value
