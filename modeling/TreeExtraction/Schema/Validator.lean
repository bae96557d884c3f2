import TreeExtraction.Schema.Issue
import TreeExtraction.Value.Access

/-! # Validators

Serialized data are checked by a library of schemas that is not part of this development: a
validator is given by the schemas that it can build and by what it makes of a value with a schema,
the data that the schema describes or a list of issues. Which values are accepted is said by
`LawfulValidator`.
-/

namespace TreeExtraction

/-- The parts of an object: schemas under keys, and what their data are put together to. -/
inductive Shape (S : Type → Type) : Type → Type 1 where
  | done {α : Type} (a : α) : Shape S α
  | entry {α β : Type} (key : Text) (schema : S β) (rest : Shape S (β → α)) : Shape S α

namespace Shape

variable {S : Type → Type} {α : Type}

def keys {α : Type} : Shape S α → List Text
  | .done _ => []
  | .entry key _ rest => key :: rest.keys

def map {α β : Type} (f : α → β) : Shape S α → Shape S β
  | .done a => .done (f a)
  | .entry key schema rest => .entry key schema (rest.map fun g b => f (g b))

def both {α β : Type} : Shape S α → Shape S β → Shape S (α × β)
  | .done a, other => other.map fun b => (a, b)
  | .entry key schema rest, other =>
    .entry key schema ((rest.both other).map fun (g, b) x => (g x, b))

end Shape

/-- A library of schemas. `safeParse` is the only way in which a schema is used; objects are strict,
they may have the keys of their shape only. -/
class Validator where
  Schema : Type → Type
  text : Schema Text
  minLength (n : Nat) (s : Schema Text) : Schema Text
  matching (pattern : Text → Bool) (message : Text) (s : Schema Text) : Schema Text
  number : Schema Number
  integer (s : Schema Number) : Schema Number
  literal (t : Text) : Schema Unit
  unknown : Schema Value
  array {α : Type} (s : Schema α) : Schema (List α)
  optional {α : Type} (s : Schema α) : Schema (Option α)
  withDefault {α : Type} (usual : α) (s : Schema α) : Schema α
  record {α : Type} (key : Schema Text) (s : Schema α) : Schema (Table α)
  object {α : Type} (shape : Shape Schema α) : Schema α
  oneOf {α : Type} (key : Text) (cases : List (Text × Schema α)) : Schema α
  safeParse {α : Type} (s : Schema α) (v : Value) : Except (List Issue) α

namespace Value

/-- Whether a value counts as a promise and not as an object. -/
def isThenable (v : Value) : Bool :=
  (v.method? (units "then")).isSome && (v.method? (units "catch")).isSome

/-- The entries of a value that counts as an object: its own fields and, under the given keys, what
else a look-up finds. -/
def objectEntries? (keys : List Text) (v : Value) : Option Entries :=
  if v.isThenable then none
  else
    match v with
    | .mapping es _ => some es
    | .object _ frame =>
      some (frame.fields ++ frame.inherited.filter fun e =>
        keys.contains e.1 && !Table.has frame.fields e.1)
    | _ => none

end Value

end TreeExtraction
