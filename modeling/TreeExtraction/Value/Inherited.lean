import TreeExtraction.Value.Basic

/-! # Inherited entries

A look-up table holds some entries that nobody put there: functions that every object inherits and
the object that they are inherited from. A look-up that does not ask for own entries finds them.
-/

namespace TreeExtraction

def inheritedFunctions : List Text :=
  ["constructor", "toString", "toLocaleString", "valueOf", "hasOwnProperty", "isPrototypeOf",
    "propertyIsEnumerable", "__defineGetter__", "__defineSetter__", "__lookupGetter__",
    "__lookupSetter__"].map units

inductive Inherited where
  | function (name : Text)
  | object
  deriving DecidableEq

def Inherited.ofName? (name : Text) : Option Inherited :=
  if inheritedFunctions.contains name then some (.function name)
  else if name == units "__proto__" then some .object
  else none

/-- The name of an inherited function itself: that of the constructor is the name of its class. -/
def Inherited.functionName (name : Text) : Text :=
  if name == units "constructor" then units "Object" else name

/-- An inherited entry as a value. The identity of a function is its place among the inherited
ones. -/
def Inherited.value : Inherited → Value
  | .function name =>
    .function (inheritedFunctions.idxOf name)
      (units "function " ++ functionName name ++ units "() \x7b [native code] \x7d")
      { inherited := [(units "name", .text (functionName name))] }
  | .object => .mapping [] .root

/-- What a look-up yields: an own entry of the table, an inherited one, or nothing. -/
inductive Found (α : Type) where
  | own (a : α)
  | inherited (i : Inherited)
  | absent

def Table.lookUp {α : Type} (t : Table α) (name : Text) : Found α :=
  match Table.get? t name with
  | some a => .own a
  | none =>
    match Inherited.ofName? name with
    | some i => .inherited i
    | none => .absent

end TreeExtraction
