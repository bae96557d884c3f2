import TreeExtraction.Value.Basic

/-! # Nesting depth

How deep values are nested in each other. Scalars have depth zero, and everything that holds values
is one deeper than the deepest of them.
-/

namespace TreeExtraction.Value

mutual

def depth : Value → Nat
  | .array vs frame => max (depthOfItems vs) (depthOfFrame frame) + 1
  | .mapping es _ => depthOfEntries es + 1
  | .map es frame => max (depthOfKeyed es) (depthOfFrame frame) + 1
  | .set _ vs frame => max (depthOfMembers vs) (depthOfFrame frame) + 1
  | .date _ frame => depthOfFrame frame
  | .invalidDate _ frame => depthOfFrame frame
  | .object _ frame => depthOfFrame frame
  | .function _ _ frame => depthOfFrame frame
  | _ => 0

def depthOfItems : List (Option Value) → Nat
  | [] => 0
  | none :: vs => depthOfItems vs
  | some v :: vs => max (depth v) (depthOfItems vs)

def depthOfMembers : List Value → Nat
  | [] => 0
  | v :: vs => max (depth v) (depthOfMembers vs)

def depthOfEntries : List (Text × Value) → Nat
  | [] => 0
  | (_, v) :: es => max (depth v) (depthOfEntries es)

def depthOfKeyed : List (Key Value × Value) → Nat
  | [] => 0
  | (.reference _ k, v) :: es => max (max (depth k) (depth v)) (depthOfKeyed es)
  | (_, v) :: es => max (depth v) (depthOfKeyed es)

/-- One more than the greatest depth of what stands in a frame, if something does. -/
def depthOfFrame : Frame Value → Nat
  | ⟨_, [], [], []⟩ => 0
  | ⟨_, fields, inherited, hidden⟩ =>
    max (depthOfEntries fields) (max (depthOfEntries inherited) (depthOfEntries hidden)) + 1

end

end TreeExtraction.Value
