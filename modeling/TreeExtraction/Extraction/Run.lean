import TreeExtraction.Failure.Basic

/-! # Runs with warnings

A run ends with a value or a failure, and it leaves warnings behind, also when it fails. Warnings
of runs in sequence are kept in order.
-/

namespace TreeExtraction

/-- A stage that was skipped because the value had the wrong kind. -/
structure Warning where
  stage : Text
  kind : Text
  deriving DecidableEq

def Warning.message (w : Warning) : Text :=
  units "[extract] " ++ w.stage ++ units " skipped: expected an array, got " ++ w.kind

structure Run (α : Type) where
  outcome : Except Failure α
  warnings : List Warning

namespace Run

def lift {α : Type} (r : Except Failure α) : Run α :=
  ⟨r, []⟩

def behind {α : Type} (earlier : List Warning) (r : Run α) : Run α :=
  ⟨r.outcome, earlier ++ r.warnings⟩

protected def bind {α β : Type} (r : Run α) (f : α → Run β) : Run β :=
  match r.outcome with
  | .ok a => (f a).behind r.warnings
  | .error e => ⟨.error e, r.warnings⟩

instance : Monad Run where
  pure a := ⟨.ok a, []⟩
  bind := Run.bind

instance {α : Type} : Inhabited (Run α) := ⟨⟨.error .unsupported, []⟩⟩

def warn (w : Warning) : Run Unit :=
  ⟨.ok (), [w]⟩

def fail {α : Type} (f : Failure) : Run α :=
  ⟨.error f, []⟩

def within {α : Type} (outer : Context) (r : Run α) : Run α :=
  ⟨inContext outer r.outcome, r.warnings⟩

theorem pure_bind {α β : Type} (a : α) (f : α → Run β) : (pure a : Run α) >>= f = f a := by
  simp [bind, pure, Run.bind, behind]

theorem bind_assoc {α β γ : Type} (r : Run α) (f : α → Run β) (g : β → Run γ) :
    r >>= f >>= g = r >>= fun a => f a >>= g := by
  rcases r with ⟨_ | a, w⟩
  · rfl
  · simp only [bind, Run.bind, behind]
    rcases f a with ⟨_ | b, v⟩ <;> simp

end Run

end TreeExtraction
