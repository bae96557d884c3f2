import TreeExtraction.Number.Basic
import TreeExtraction.Text.Table

/-! # Source values

The values that source trees are made of: scalars, arrays, plain mappings, keyed maps, sets, dates,
objects of host classes and functions. Arrays, mappings, maps and dates are compared by their
content. All other objects carry an identity, and equal identities mean the same object.

Places of an array can be empty. A plain mapping lists its entries in reading order: names of list
positions first, in ascending order, and then the other keys in the order in which they were put
in. Members under symbols, and own members that are not listed, are not part of a value; a member
that is computed when it is read counts as what it then is. Arrays, maps, sets and dates have the
methods of their kind, whatever their class.
-/

namespace TreeExtraction

/-- A key of a map. Scalars are keys by value, everything else is a key by its identity. -/
inductive Key (α : Type) where
  | undefined
  | null
  | bool (b : Bool)
  | number (n : Number)
  | bigint (n : Int)
  | text (t : Text)
  | symbol (identity : Nat) (description : Text)
  | reference (identity : Nat) (content : α)

def Key.same {α β : Type} : Key α → Key β → Bool
  | .undefined, .undefined => true
  | .null, .null => true
  | .bool a, .bool b => a == b
  | .number a, .number b => a.same b
  | .bigint a, .bigint b => a == b
  | .text a, .text b => a == b
  | .symbol a _, .symbol b _ => a == b
  | .reference a _, .reference b _ => a == b
  | _, _ => false

/-- What an object has beside its content: a class, unless it is of the usual one for its content,
own fields in reading order, what else a look-up of its names finds, such as the methods of its
class, and what only these methods reach. Where a class inherits nothing, what other objects inherit
is undefined. -/
structure Frame (α : Type) where
  className : Option Text := none
  fields : List (Text × α) := []
  inherited : List (Text × α) := []
  hidden : List (Text × α) := []

/-- Where a plain mapping stands among the objects that inherit from each other. The root of all
objects is a plain mapping itself, and so are the objects that all sets and all dates inherit from;
a bare mapping was made to inherit nothing. -/
inductive Ancestry where
  | ordinary
  | root
  | bare
  | parentOfSets
  | parentOfDates
  deriving DecidableEq

def Ancestry.hasParent : Ancestry → Bool
  | .root | .bare => false
  | .ordinary | .parentOfSets | .parentOfDates => true

/-- A source value. Dates count milliseconds; a function has the text that it is written as. -/
inductive Value where
  | undefined
  | null
  | bool (b : Bool)
  | number (n : Number)
  | bigint (n : Int)
  | text (t : Text)
  | symbol (identity : Nat) (description : Text)
  | array (items : List (Option Value)) (frame : Frame Value)
  | mapping (entries : List (Text × Value)) (ancestry : Ancestry := .ordinary)
  | map (entries : List (Key Value × Value)) (frame : Frame Value)
  | set (identity : Nat) (items : List Value) (frame : Frame Value)
  | date (milliseconds : Int) (frame : Frame Value)
  | invalidDate (identity : Nat) (frame : Frame Value)
  | object (identity : Nat) (frame : Frame Value)
  | function (identity : Nat) (source : Text) (frame : Frame Value)

abbrev Entries := Table Value

namespace Value

instance : Inhabited Value := ⟨.undefined⟩

def list (vs : List Value) : Value :=
  .array (vs.map some) {}

def isNull : Value → Bool
  | .undefined => true
  | .null => true
  | _ => false

def orNull : Value → Value
  | .undefined => .null
  | v => v

/-- Null for a function, and the value itself otherwise. -/
def dataOnly : Value → Value
  | .function .. => .null
  | v => v.orNull

def isScalar : Value → Bool
  | .undefined | .null | .bool _ | .number _ | .text _ => true
  | _ => false

def isMapping : Value → Bool
  | .mapping .. => true
  | _ => false

def isObjectLike : Value → Bool
  | .mapping .. | .map .. | .set .. | .date .. | .invalidDate .. | .object .. => true
  | _ => false

/-- The name of a class; `usual` is that of the usual one. -/
def classKind (usual : String) : Option Text → Text
  | none => units usual
  | some [] => units "object"
  | some c => c

def kind : Value → Text
  | .undefined => units "null"
  | .null => units "null"
  | .bool _ => units "boolean"
  | .number _ => units "number"
  | .bigint _ => units "bigint"
  | .text _ => units "string"
  | .symbol .. => units "symbol"
  | .array .. => units "array"
  | .mapping .. => units "object"
  | .map .. => units "map"
  | .set _ _ frame => classKind "Set" frame.className
  | .date _ frame => classKind "Date" frame.className
  | .invalidDate _ frame => classKind "Date" frame.className
  | .object _ frame => classKind "object" frame.className
  | .function .. => units "function"

/-- The items at the places of an array that are not empty. -/
def present {α : Type} (items : List (Option α)) : List α :=
  items.filterMap id

/-- The items of an array as they are read one by one, undefined at empty places. -/
def reading (items : List (Option Value)) : List Value :=
  items.map (·.getD .undefined)

end Value

namespace Entries

def get (es : Entries) (k : Text) : Value :=
  (Table.get? es k).getD .undefined

end Entries

/-- What a look-up of a name finds on the object itself or in its class. -/
def Frame.members {α : Type} (frame : Frame α) : Table α :=
  frame.fields ++ frame.inherited

namespace Value

def members : Value → Entries
  | .mapping es _ => es
  | .array _ frame | .map _ frame | .set _ _ frame | .date _ frame | .invalidDate _ frame
  | .object _ frame | .function _ _ frame => frame.members
  | _ => []

/-- The function that a value has as a member, if it has one under the name. -/
def method? (v : Value) (name : Text) : Option Nat :=
  match Table.get? v.members name with
  | some (.function f _ _) => some f
  | _ => none

def atKey? (entries : List (Key Value × Value)) (k : Key Value) : Option Value :=
  (entries.find? fun e => e.1.same k).map (·.2)

/-- The key by which a map finds a value; `identity` is that of a value without one of its own. A
zero is a key without its sign. -/
def toKey (identity : Nat) : Value → Key Value
  | .undefined => .undefined
  | .null => .null
  | .bool b => .bool b
  | .number n => .number (if n.isZero then .zero else n)
  | .bigint n => .bigint n
  | .text t => .text t
  | .symbol i d => .symbol i d
  | .set i items frame => .reference i (.set i items frame)
  | .invalidDate i frame => .reference i (.invalidDate i frame)
  | .object i frame => .reference i (.object i frame)
  | .function i source frame => .reference i (.function i source frame)
  | v => .reference identity v

def ofKey : Key Value → Value
  | .undefined => .undefined
  | .null => .null
  | .bool b => .bool b
  | .number n => .number n
  | .bigint n => .bigint n
  | .text t => .text t
  | .symbol i d => .symbol i d
  | .reference _ v => v

/-- The greatest count of milliseconds, of either sign, that is a date. -/
def dateLimit : Nat := 8640000000000000

/-- The date of a count of milliseconds, whose fraction is dropped. -/
def ofMilliseconds (identity : Nat) : Number → Value
  | .finite negative x =>
    if dateLimit < x.whole || (x.whole == dateLimit && !x.isWhole) then .invalidDate identity {}
    else .date (if negative then -(x.whole : Int) else x.whole) {}
  | _ => .invalidDate identity {}

def ofString (s : String) : Value :=
  .text (units s)

end Value

end TreeExtraction
