import TreeExtraction.Value.Access

/-! # A host with a few functions

A small pure host: functions that hand values on, answer something of their own, read fields or
throw. Identities below those of its functions belong to the functions that every object inherits.
-/

namespace TreeExtraction

/-- The functions of the host. `lookUp` is a capability: it answers from what is hidden in its
object. -/
inductive SampleFunction where
  | identity
  | nothing
  | fortyTwo
  | double
  | kind
  | fieldX
  | raise
  | raiseSpec
  | lookUp
  deriving DecidableEq

namespace SampleFunction

def all : List SampleFunction :=
  [.identity, .nothing, .fortyTwo, .double, .kind, .fieldX, .raise, .raiseSpec, .lookUp]

def name : SampleFunction → Text
  | .identity => units "identity"
  | .nothing => units "undefined"
  | .fortyTwo => units "const42"
  | .double => units "double"
  | .kind => units "kind"
  | .fieldX => units "get_x"
  | .raise => units "throw"
  | .raiseSpec => units "throw_spec"
  | .lookUp => units "getField"

/-- The identity of the first function, behind those that every object inherits. -/
def firstIdentity : Nat := 11

def value (f : SampleFunction) : Value :=
  .function (firstIdentity + all.idxOf f) f.name
    { inherited := [(units "name", .text f.name), (units "length", .number (.ofNat 1))] }

def ofIdentity? (i : Nat) : Option SampleFunction :=
  if i < firstIdentity then none else all[i - firstIdentity]?

def rangeError : Value :=
  .object 0 { className := some (units "RangeError"),
              inherited := [(units "message", .ofString "custom failure")] }

/-- The answer of a function to a value, on an object with hidden entries; `field` is that of
`fieldX`. -/
def answer (field : Except Failure Value) (hidden : Entries) (f : SampleFunction) (v : Value) :
    Except Failure Value :=
  match f with
  | .identity => .ok v
  | .nothing => .ok .undefined
  | .fortyTwo => .ok (.number (.ofNat 42))
  | .double =>
    match v with
    | .number n => .ok (.number (n.mul (.ofNat 2)))
    | _ => .ok v
  | .kind => .ok (.text v.kind)
  | .fieldX => field
  | .raise => .error (.thrown rangeError)
  | .raiseSpec =>
    .error (.report (.raised .spec (units "custom spec failure")) { path := some (units "p") })
  | .lookUp =>
    match v with
    | .text name => .ok (Entries.get hidden name)
    | _ => .ok .undefined

end SampleFunction

namespace SampleHost

def hidden : Value → Entries
  | .object _ frame => frame.hidden
  | _ => []

/-- The answer of the function with an identity; one that is inherited hands its argument on. -/
def ruleBy (field : Value → Except Failure Value) (f : Nat) (this : Value)
    (arguments : List Value) : Except Failure Value :=
  let v := arguments.headD .undefined
  match SampleFunction.ofIdentity? f with
  | some f => f.answer (field v) (hidden this) v
  | none => .ok v

/-- How deep the writing of structures goes from one function to the next. -/
def callDepth : Nat := 64

/-- The host in which `fieldX` finds nothing, as it does in a text. -/
@[reducible] def textHost : PureHost :=
  .ofRule (ruleBy fun _ => .ok .null) callDepth

/-- The host. A capability is asked with a text, so a value that has `fieldX` for one answers as
in `textHost`. -/
scoped instance host : PureHost :=
  .ofRule (ruleBy fun v => @Value.getField textHost v (units "x")) callDepth

end SampleHost

end TreeExtraction
