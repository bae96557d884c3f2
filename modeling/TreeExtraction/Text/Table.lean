import TreeExtraction.Text.Digits

/-! # Tables with text keys

A table lists entries under distinct texts. `Table.insert` keeps the order of insertion.
`Table.set` keeps reading order: names of list positions come first, in ascending order, and the
other keys follow in the order of insertion. Either way a key that is there already keeps its
place.
-/

namespace TreeExtraction

abbrev Table (α : Type) := List (Text × α)

namespace Table

variable {α : Type}

def get? (t : Table α) (k : Text) : Option α :=
  t.lookup k

def has (t : Table α) (k : Text) : Bool :=
  (get? t k).isSome

def keys (t : Table α) : List Text :=
  t.map (·.1)

def replace (t : Table α) (k : Text) (v : α) : Table α :=
  t.map fun e => if e.1 == k then (k, v) else e

/-- Puts an entry in, a new key at the end. -/
def insert (t : Table α) (k : Text) (v : α) : Table α :=
  if has t k then replace t k v else t ++ [(k, v)]

/-- Whether a key names a list position below `p`. -/
def isBelow (p : Nat) (k : Text) : Bool :=
  (Text.position? k).any (· < p)

/-- Puts an entry in, a new key in reading order. -/
def set (t : Table α) (k : Text) (v : α) : Table α :=
  if has t k then replace t k v
  else
    match Text.position? k with
    | none => t ++ [(k, v)]
    | some p =>
      t.takeWhile (fun e => isBelow p e.1) ++ (k, v) :: t.dropWhile (fun e => isBelow p e.1)

/-- A table with further entries put in, in reading order. -/
def merge (t others : Table α) : Table α :=
  others.foldl (fun m e => set m e.1 e.2) t

/-- The table of the given entries in reading order, with the last value of each key. -/
def ofList (es : List (Text × α)) : Table α :=
  merge [] es

end Table

end TreeExtraction
