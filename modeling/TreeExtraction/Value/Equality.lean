import TreeExtraction.Value.Basic

/-! # Equality of values

Structural equality without conversion between kinds. Absent values are equal to each other, zeros
of both signs are equal and not-a-number equals itself. The order of the entries of mappings and
maps does not matter. Dates are equal as counts of milliseconds, whatever their class. Opaque
objects are equal only to themselves. An empty place of the first of two arrays is not compared; one
of the second array is undefined.
-/

namespace TreeExtraction.Value

mutual

def equal : Value → Value → Bool
  | .undefined, b => b.isNull
  | .null, b => b.isNull
  | .bool a, .bool b => a == b
  | .number a, .number b => a.same b
  | .bigint a, .bigint b => a == b
  | .text a, .text b => a == b
  | .symbol i _, .symbol j _ => i == j
  | .array as _, .array bs _ => equalItems as bs
  | .mapping es _, .mapping fs _ => es.length == fs.length && equalEntries es fs
  | .map es _, .map fs _ => es.length == fs.length && equalKeyed es fs
  | .set i .., .set j .. => i == j
  | .date a _, .date b _ => a == b
  | .invalidDate i _, .invalidDate j _ => i == j
  | .object i _, .object j _ => i == j
  | .function i .., .function j .. => i == j
  | _, _ => false

/-- Whether two lists are of the same length and equal at each place that is not empty in the first
one. -/
def equalItems : List (Option Value) → List (Option Value) → Bool
  | [], [] => true
  | none :: as, _ :: bs => equalItems as bs
  | some a :: as, b :: bs => equal a (b.getD .undefined) && equalItems as bs
  | _, _ => false

/-- Whether each entry has an equal one in a mapping. -/
def equalEntries : List (Text × Value) → Entries → Bool
  | [], _ => true
  | (k, a) :: es, fs =>
    (match Table.get? fs k with
      | some b => equal a b
      | none => false) && equalEntries es fs

/-- Whether each entry has an equal one in a map. -/
def equalKeyed : List (Key Value × Value) → List (Key Value × Value) → Bool
  | [], _ => true
  | (k, a) :: es, fs =>
    (match atKey? fs k with
      | some b => equal a b
      | none => false) && equalKeyed es fs

end

end TreeExtraction.Value
