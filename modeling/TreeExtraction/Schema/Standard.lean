import TreeExtraction.Schema.Validator

/-! # The standard validator

A validator whose schemas are checks: a check yields typed data or all issues that it finds. Checks
of several parts run side by side, so that the issues of every part are reported, in the order of
the parts.
-/

namespace TreeExtraction

/-- A check of a value: checked data, or what is wrong. -/
abbrev Check (α : Type) := Value → Except (List Issue) α

namespace Check

def received (v : Value) : Text :=
  if v.isThenable then units "promise"
  else
    match v with
    | .undefined => units "undefined"
    | .null => units "null"
    | .bool _ => units "boolean"
    | .number n => if n = .nan then units "nan" else units "number"
    | .bigint _ => units "bigint"
    | .text _ => units "string"
    | .symbol .. => units "symbol"
    | .array .. => units "array"
    | .mapping .. => units "object"
    | .map .. => units "map"
    | .set .. => units "set"
    | .date .. => units "date"
    | .invalidDate .. => units "date"
    | .object .. => units "object"
    | .function .. => units "function"

def wrongKind (expected received : Text) : Issue :=
  ⟨[], units "Expected " ++ expected ++ units ", received " ++ received⟩

def unexpected {α : Type} (expected : String) (v : Value) : Except (List Issue) α :=
  match v with
  | .undefined => .error [⟨[], units "Required"⟩]
  | _ => .error [wrongKind (units expected) (received v)]

def under {α : Type} (key : Text) (r : Except (List Issue) α) : Except (List Issue) α :=
  r.mapError fun is => is.map (·.within key)

def both {α β : Type} (a : Except (List Issue) α) (b : Except (List Issue) β) :
    Except (List Issue) (α × β) :=
  match a, b with
  | .ok x, .ok y => .ok (x, y)
  | .ok _, .error later => .error later
  | .error earlier, .ok _ => .error earlier
  | .error earlier, .error later => .error (earlier ++ later)

def all {α : Type} : List (Except (List Issue) α) → Except (List Issue) (List α)
  | [] => .ok []
  | r :: rs => (both r (all rs)).map fun (x, xs) => x :: xs

def text : Check Text
  | .text t => .ok t
  | v => unexpected "string" v

/-- A text with a property; `message` says what is wrong with one that lacks it. -/
def require (property : Text → Bool) (message : Text) (check : Check Text) : Check Text := fun v =>
  (check v).bind fun t => if property t then .ok t else .error [⟨[], message⟩]

def minLengthMessage (n : Nat) : Text :=
  units "String must contain at least " ++ Text.ofNat n ++ units " character(s)"

def number : Check Number
  | .number n => if n = .nan then unexpected "number" (.number n) else .ok n
  | v => unexpected "number" v

def integer (check : Check Number) : Check Number := fun v =>
  (check v).bind fun n =>
    if n.isInteger then .ok n else .error [wrongKind (units "integer") (units "float")]

def literal (t : Text) : Check Unit := fun v =>
  match v with
  | .text u =>
    if u = t then .ok ()
    else .error [⟨[], units "Invalid literal value, expected " ++ Text.quoted t⟩]
  | _ => .error [⟨[], units "Invalid literal value, expected " ++ Text.quoted t⟩]

def optional {α : Type} (check : Check α) : Check (Option α)
  | .undefined => .ok none
  | v => (check v).map some

def withDefault {α : Type} (usual : α) (check : Check α) : Check α := fun v =>
  (optional check v).map (·.getD usual)

def items {α : Type} (check : Check α) (position : Nat) : List Value → Except (List Issue) (List α)
  | [] => .ok []
  | v :: vs =>
    (both (under (Text.ofNat position) (check v)) (items check (position + 1) vs)).map
      fun (x, xs) => x :: xs

def array {α : Type} (check : Check α) : Check (List α)
  | .array vs _ => items check 0 (Value.reading vs)
  | v => unexpected "array" v

def entries (keys : List Text) (v : Value) : Except (List Issue) Entries :=
  match v.objectEntries? keys with
  | some es => .ok es
  | none => unexpected "object" v

/-- A mapping from keys to values, the key of each entry checked before its value. An entry under
the name of the inherited object is checked and left out. -/
def record {α : Type} (key : Check Text) (check : Check α) : Check (Table α) := fun v =>
  (entries [] v).bind fun es =>
    (all (es.map fun (k, item) => both (under k (key (.text k))) (under k (check item)))).map
      fun checked => checked.filter fun e => e.1 != Value.parentName

def onlyKeys (known : List Text) (es : Entries) : Except (List Issue) Unit :=
  match (es.map (·.1)).filter fun k => !known.contains k with
  | [] => .ok ()
  | extra =>
    .error [⟨[], units "Unrecognized key(s) in object: " ++
      Text.join (units ", ") (extra.map fun k => unit '\'' :: (k ++ [unit '\'']))⟩]

def parts {α : Type} (look : Text → Value) : Shape Check α → Except (List Issue) α
  | .done a => .ok a
  | .entry key check rest =>
    (both (under key (check (look key))) (parts look rest)).map fun (b, f) => f b

def object {α : Type} (shape : Shape Check α) : Check α := fun v =>
  (entries shape.keys v).bind fun es =>
    (both (parts (Entries.get es) shape) (onlyKeys shape.keys es)).map fun (a, _) => a

/-- The check of the case that a text entry names. -/
def oneOf {α : Type} (key : Text) (cases : List (Text × Check α)) : Check α := fun v =>
  let invalid : Issue := ⟨[key], units "Invalid discriminator value. Expected " ++
    Text.join (units " | ") (cases.map fun c => unit '\'' :: (c.1 ++ [unit '\'']))⟩
  (entries [key] v).bind fun es =>
    match Entries.get es key with
    | .text name =>
      match cases.lookup name with
      | some check => check v
      | none => .error [invalid]
    | _ => .error [invalid]

end Check

namespace StandardValidator

scoped instance validator : Validator where
  Schema := Check
  text := Check.text
  minLength n := Check.require (fun t => n ≤ t.length) (Check.minLengthMessage n)
  matching := Check.require
  number := Check.number
  integer := Check.integer
  literal := Check.literal
  unknown := .ok
  array := Check.array
  optional := Check.optional
  withDefault := Check.withDefault
  record := Check.record
  object := Check.object
  oneOf := Check.oneOf
  safeParse check v := check v

end StandardValidator

end TreeExtraction
