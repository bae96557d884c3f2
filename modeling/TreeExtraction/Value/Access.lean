import TreeExtraction.Number.Arithmetic
import TreeExtraction.Value.Host

/-! # Access to fields, items and keys

Named fields, positions and keys of every kind of value. What is absent is null, and functions are
never fields. An object with a method `getField` answers field requests through it. A key of a
number, a truth value, a big integer, a symbol or a function is an error, and so is what an object
bars from being read.
-/

namespace TreeExtraction.Value

def capabilityName : Text := units "getField"

/-- Name under which every object holds the object it inherits from. -/
def parentName : Text := units "__proto__"

/-- Names of the fields that every function inherits and that nobody may read. -/
def barredNames : List Text := [units "caller", units "arguments"]

def sizeName : Text := units "size"

def arrayParent : Value :=
  .array [] { inherited := [(parentName, .mapping [] .root)] }

/-- What all objects of a kind have, beside their members. -/
def common? (v : Value) (name : Text) : Option Value :=
  match v with
  | .array items _ =>
    if name == units "length" then some (.number (.ofNat items.length))
    else if name == parentName then some arrayParent
    else (Text.position? name).bind fun p => items.getD p none
  | .mapping _ ancestry =>
    if ancestry.hasParent && name == parentName then some (.mapping [] .root) else none
  | .set _ items _ =>
    if name == sizeName then some (.number (.ofNat items.length))
    else if name == parentName then some (.mapping [] .parentOfSets) else none
  | .date .. | .invalidDate .. =>
    if name == parentName then some (.mapping [] .parentOfDates) else none
  | .object .. => if name == parentName then some (.mapping []) else none
  | _ => none

/-- What a look-up of a name finds on an object. -/
def property (v : Value) (name : Text) : Value :=
  (((Table.get? v.members name).or (v.common? name)).getD .null).dataOnly

/-- Whether an object has something under a name that cannot be read: a field that all functions
inherit, or, of what all sets inherit from, the size. -/
def bars (v : Value) (name : Text) : Bool :=
  !Table.has v.members name &&
    match v with
    | .function .. => barredNames.contains name
    | .mapping _ .parentOfSets => name == sizeName
    | _ => false

def readProperty (v : Value) (name : Text) : Except Failure Value :=
  if v.bars name then .error .unsupported else .ok (v.property name)

/-- The field that an object without a capability has under a name. -/
def ownField (v : Value) (name : Text) : Except Failure Value :=
  match v with
  | .mapping es _ =>
    if v.bars name then .error .unsupported else .ok (Entries.get es name).dataOnly
  | .map es _ => .ok ((atKey? es (.text name)).getD .null).dataOnly
  | .array .. | .set .. | .date .. | .invalidDate .. | .object .. | .function .. =>
    v.readProperty name
  | _ => .ok .null

/-- The item of a list at a position; a negative one counts from the end. -/
def itemAt {α : Type} (items : List α) (n : Number) : Option α :=
  let position := if n.less .zero then Number.add (.ofNat items.length) n else n
  match position.toInt? with
  | some i => if 0 ≤ i then items[i.toNat]? else none
  | none => none

def getIndex (v : Value) (n : Number) : Value :=
  match v with
  | .text t => ((itemAt t n).map fun u => .text [u]).getD .null
  | .array items _ => ((itemAt items n).join.getD .null).orNull
  | .map es _ => ((atKey? es (.number n)).getD .null).orNull
  | _ => .null

section

variable [PureHost]

def ask (f : Nat) (v : Value) (name : Text) : Except Failure Value :=
  PureHost.answer f v [.text name]

def getField (v : Value) (name : Text) : Except Failure Value :=
  match v.method? capabilityName with
  | some f => dataOnly <$> ask f v name
  | none => v.ownField name

def getKey (v : Value) (k : Text) : Except Failure Value :=
  match v with
  | .undefined | .null | .text _ | .array .. => .ok .null
  | .map es _ => .ok ((atKey? es (.text k)).getD .null).orNull
  | .bool _ | .number _ | .bigint _ | .symbol .. | .function .. =>
    .error (.report (.keylessAccess k v.kind) {})
  | _ =>
    match v.method? capabilityName with
    | some f => orNull <$> ask f v k
    | none => v.readProperty k

def textEntries (es : List (Key Value × Value)) : List (Text × Value) :=
  es.filterMap fun (k, v) =>
    match k with
    | .text t => some (t, v)
    | _ => none

def isPrivate (name : Text) : Bool :=
  Text.startsWith name [unit '_']

/-- The names of the fields of an object that a scan lists, in reading order. -/
def listedNames : Value → List Text
  | .mapping es _ => Table.keys es
  | .set _ _ frame | .date _ frame | .invalidDate _ frame | .object _ frame =>
    (Table.keys frame.fields).filter fun name => !isPrivate name
  | _ => []

def listFields (v : Value) : Except Failure (List (Text × Value)) :=
  match v with
  | .map es _ => .ok (textEntries es)
  | _ => v.listedNames.mapM fun name => do return (name, ← v.getField name)

end

end TreeExtraction.Value
