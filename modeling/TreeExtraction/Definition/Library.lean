import TreeExtraction.Definition.Builtin
import TreeExtraction.Definition.Serialized

/-! # Definition libraries

A library holds definitions under names. The name `default` always means the default definition and
cannot be registered, and neither can the empty name. Libraries are changed in place: a registration
is an action on the state of a library, which is kept also where the action fails.
-/

namespace TreeExtraction

/-- Definitions under names, in the order of their first registration. -/
structure Library where
  registered : Table Definition

/-- What can be registered: a definition, or a serialized one. -/
inductive Registrable where
  | definition (d : Definition)
  | serialized (raw : Value)

def Registrable.resolve [PureHost] [Validator] : Registrable → Except Failure Definition
  | .definition d => .ok d
  | .serialized raw => Definition.compile raw

namespace Library

/-- Actions on a library. What they have done to it stays when they fail. -/
abbrev Action := ExceptT Failure (StateM Library)

def empty : Library := ⟨[]⟩

def defaultName : Text := units "default"

def checkName (name : Text) : Except Failure Unit :=
  if name.isEmpty || name == defaultName then .error (.spec (.reservedName name)) else .ok ()

/-- Registers a definition under a name, in place of the one that the name has. -/
def register [PureHost] [Validator] (name : Text) (r : Registrable) : Action Definition := do
  liftExcept (checkName name)
  let d ← liftExcept r.resolve
  modify fun l => ⟨Table.insert l.registered name d⟩
  return d

def has (l : Library) (name : Text) : Bool :=
  name == defaultName || Table.has l.registered name

def list (l : Library) : List Text :=
  Text.sort (defaultName :: Table.keys l.registered)

def get (l : Library) (name : Text) : Except Failure Definition :=
  if name == defaultName then .ok .default
  else
    match Table.get? l.registered name with
    | some d => .ok d
    | none => .error (.spec (.unknownDefinition name l.list))

def registerAll [PureHost] [Validator] : Table Value → Action Unit
  | [] => return ()
  | (name, raw) :: rest => do
    let _ ← register name (.serialized raw)
    registerAll rest

def withBuiltins [PureHost] [Validator] : Except Failure Library :=
  match (registerAll Builtin.all).run empty with
  | (.ok _, l) => .ok l
  | (.error f, _) => .error f

end Library

end TreeExtraction
