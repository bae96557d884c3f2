import TreeExtraction.Value.Host

/-! # Calls of pure hosts

A call of a pure host answers what the function always answers and leaves the memory as it is. So
calls that are made one after the other answer independently of each other and of what was called
before them.
-/

namespace TreeExtraction.PureHost

variable [PureHost]

theorem call_eq (f : Nat) (this : Value) (arguments : List Value) (m : host.Memory) :
    host.call f this arguments m = (answer f this arguments, m) :=
  Prod.ext (isPure.forgets f this arguments m start) (isPure.keeps f this arguments m)

/-- Calls in sequence, from any memory, answer as each of them does by itself. -/
theorem answers_eq_map (cs : List Host.Call) (m : host.Memory) :
    host.answers cs m = cs.map fun c => answer c.function c.this c.arguments := by
  induction cs generalizing m with
  | nil => rfl
  | cons c cs ih =>
    rw [Host.answers, call_eq, List.map_cons]
    exact congrArg _ (ih m)

end TreeExtraction.PureHost
