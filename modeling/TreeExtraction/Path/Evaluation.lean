import TreeExtraction.Path.Reader
import TreeExtraction.Value.Access

/-! # Following paths

A path is followed step by step. Absent data is null at every step, and nothing is looked up in
it, so that fallbacks can take over. An error names the path and the step at which it arises.
-/

namespace TreeExtraction.Path

variable [PureHost]

def takeStep (v : Value) : Step → Except Failure Value
  | .attribute n => v.getField n
  | .index n => .ok (v.getIndex n)
  | .key k => v.getKey k

/-- Follows steps from a value; `taken` steps of the path lie before them. -/
def followFrom (text : Text) (taken : Nat) (v : Value) : List Step → Except Failure Value
  | [] => .ok v.orNull
  | s :: rest =>
    if v.isNull then .ok .null
    else do
      let next ← inContext { path := some text, stepIndex := some taken } (takeStep v s)
      followFrom text (taken + 1) next rest

/-- Follows steps from a value. The path text is named in errors only; where it is not given, it
is written from the steps. -/
def follow (v : Value) (steps : List Step) (text : Option Text := none) : Except Failure Value :=
  followFrom (text.getD (describe steps)) 0 v steps

def extract (v : Value) (text : Text) : Except Failure Value := do
  let steps ← read text
  follow v steps (some text)

end TreeExtraction.Path
