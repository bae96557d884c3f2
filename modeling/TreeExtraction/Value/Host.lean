import TreeExtraction.Failure.Basic

/-! # Hosts

Source data and specifications hold functions of a host, and extraction calls them. A host is what
its functions do: a call on an object and with arguments reads and changes what the host remembers,
and it answers with a value or fails. Nothing is said about which functions there are.

Extraction is understood for pure hosts. What a pure host remembers is never changed and cannot be
told from its answers, so a call has one answer, whenever it is made and however often:
`PureHost.answer`.
-/

namespace TreeExtraction

/-- The functions of a host, by their identities. -/
structure Host where
  Memory : Type
  call (f : Nat) (this : Value) (arguments : List Value) (m : Memory) :
    Except Failure Value × Memory

namespace Host

structure Call where
  function : Nat
  this : Value
  arguments : List Value

/-- The answers to calls that are made one after the other. -/
def answers (h : Host) : List Call → h.Memory → List (Except Failure Value)
  | [], _ => []
  | c :: cs, m =>
    let (answer, m) := h.call c.function c.this c.arguments m
    answer :: h.answers cs m

/-- Purity: a call leaves the memory as it is, and its answer does not depend on it. -/
structure IsPure (h : Host) : Prop where
  keeps : ∀ f this arguments m, (h.call f this arguments m).2 = m
  forgets : ∀ f this arguments m n,
    (h.call f this arguments m).1 = (h.call f this arguments n).1

end Host

/-- A host all of whose functions are pure, with a memory to start from and a limit to how deep the
writing of a structure may go from one function to the next. -/
class PureHost where
  host : Host
  start : host.Memory
  isPure : host.IsPure
  callDepth : Nat

namespace PureHost

def answer [PureHost] (f : Nat) (this : Value) (arguments : List Value) : Except Failure Value :=
  (host.call f this arguments start).1

@[reducible] def ofRule (rule : Nat → Value → List Value → Except Failure Value) (callDepth : Nat) :
    PureHost where
  host := { Memory := Unit, call := fun f this arguments m => (rule f this arguments, m) }
  start := ()
  isPure := ⟨fun _ _ _ _ => rfl, fun _ _ _ _ _ => rfl⟩
  callDepth := callDepth

end PureHost

end TreeExtraction
