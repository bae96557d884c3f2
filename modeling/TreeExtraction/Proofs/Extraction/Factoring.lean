import TreeExtraction.Extraction.Pipeline
import TreeExtraction.Proofs.Outcome
import TreeExtraction.Value.SampleHost

/-! # Extractions in two runs

The stages of an extraction can be cut behind the default, the transform or the filter. The stages
behind a cut start from the value that those in front of it have found and from nothing else: none
of them looks back at the source, and all of them take absent values alike. So they may as well run
on a source that holds this value, with the same result or failure, and the warnings of both runs
are those of the whole in their order. Only a function cannot be taken out of such a source.
-/

namespace TreeExtraction

/-! ## Cuts -/

/-- The stages behind which an extraction can be cut. -/
inductive Cut where
  | default
  | transform
  | filter

namespace Cut

/-- The name under which the value of a first run is held for a second one. -/
def heldName : Text := units "v"

/-- A source that holds a value. -/
def holding (v : Value) : Value :=
  .mapping [(heldName, v)]

/-- The stages in front of a cut. -/
def front (c : Cut) (s : Stages) : Stages :=
  match c with
  | .default => { path := s.path, fallback := s.fallback, default := s.default }
  | .transform =>
    { path := s.path, fallback := s.fallback, default := s.default, transform := s.transform }
  | .filter =>
    { path := s.path, fallback := s.fallback, default := s.default, transform := s.transform,
      filter := s.filter }

/-- The stages behind a cut, on the value that is held. -/
def back (c : Cut) (s : Stages) : Stages :=
  match c with
  | .default =>
    { path := some heldName, transform := s.transform, filter := s.filter, map := s.map }
  | .transform => { path := some heldName, filter := s.filter, map := s.map }
  | .filter => { path := some heldName, map := s.map }

end Cut

namespace Spec

/-! ## Stages as steps from value to value -/

variable [PureHost]

/-- The value up to the default. -/
def runFound (source : Value) (s : Stages) : Run Value := do
  let found ← .lift (runPath source s.path)
  let found ← .lift (runFallback source s.fallback found)
  return runDefault s.default found

/-- The stages behind the filter. -/
def runFromMap (s : Stages) (v : Value) : Run Value := do
  let w ← runItems .map MapSpec.apply s.map v
  return w.orNull

/-- The stages behind the transform. -/
def runFromFilter (s : Stages) (v : Value) : Run Value := do
  let w ← runItems .filter Predicate.filterValue s.filter v
  runFromMap s w

/-- The stages behind the default. -/
def runFromTransform (s : Stages) (v : Value) : Run Value := do
  let w ← .lift (runTransform s.transform v)
  runFromFilter s w

variable {source v : Value} {s : Stages}

theorem runStages_eq (source : Value) (s : Stages) :
    runStages source s = runFound source s >>= runFromTransform s := by
  simp only [runStages, runFound, Run.bind_assoc, Run.pure_bind]
  rfl

/-- Absent values are alike behind every cut. -/
theorem runFromMap_orNull (s : Stages) (v : Value) : runFromMap s v.orNull = runFromMap s v := by
  cases v with
  | undefined => cases h : s.map <;> simp only [runFromMap, h] <;> rfl
  | _ => rfl

theorem runFromFilter_orNull (s : Stages) (v : Value) :
    runFromFilter s v.orNull = runFromFilter s v := by
  cases v with
  | undefined =>
    have hmap : runFromMap s .null = runFromMap s .undefined := runFromMap_orNull s .undefined
    cases h : s.filter <;> simp only [runFromFilter, h]
    · exact hmap
    · exact hmap
  | _ => rfl

theorem runFromTransform_orNull (s : Stages) (v : Value) :
    runFromTransform s v.orNull = runFromTransform s v := by
  cases v with
  | undefined =>
    have hfilter : runFromFilter s .null = runFromFilter s .undefined :=
      runFromFilter_orNull s .undefined
    cases h : s.transform with
    | none =>
      simp only [runFromTransform, h]
      exact hfilter
    | some t =>
      simp only [runFromTransform, h]
      exact hfilter
  | _ => rfl

end Spec

/-! ## Both halves -/

namespace Cut

section

variable [PureHost] {c : Cut} {s : Stages} {source v : Value}

/-- The stages in front of a cut, step by step. -/
def runAhead (c : Cut) (source : Value) (s : Stages) : Run Value :=
  match c with
  | .default => Spec.runFound source s
  | .transform => do
    let v ← Spec.runFound source s
    .lift (Spec.runTransform s.transform v)
  | .filter => do
    let v ← Spec.runFound source s
    let v ← .lift (Spec.runTransform s.transform v)
    Spec.runItems .filter Predicate.filterValue s.filter v

/-- The stages behind a cut, step by step. -/
def runBehind (c : Cut) (s : Stages) (v : Value) : Run Value :=
  match c with
  | .default => Spec.runFromTransform s v
  | .transform => Spec.runFromFilter s v
  | .filter => Spec.runFromMap s v

theorem runStages_eq_ahead_behind (c : Cut) (source : Value) (s : Stages) :
    Spec.runStages source s = c.runAhead source s >>= c.runBehind s := by
  rw [Spec.runStages_eq]
  cases c with
  | default => rfl
  | transform => exact (Run.bind_assoc _ _ _).symm
  | filter =>
    simp only [runAhead, Run.bind_assoc]
    rfl

theorem runBehind_orNull (c : Cut) (s : Stages) (v : Value) :
    c.runBehind s v.orNull = c.runBehind s v := by
  cases c with
  | default => exact Spec.runFromTransform_orNull s v
  | transform => exact Spec.runFromFilter_orNull s v
  | filter => exact Spec.runFromMap_orNull s v

/-- The first run yields the value at the cut. -/
theorem runStages_front (c : Cut) (source : Value) (s : Stages) :
    Spec.runStages source (c.front s) = c.runAhead source s >>= fun v => pure v.orNull := by
  rw [Spec.runStages_eq]
  cases c with
  | default => exact Run.bind_congr fun v _ => rfl
  | transform =>
    rw [runAhead, Run.bind_assoc]
    exact Run.bind_congr fun v _ => Run.bind_congr fun w _ => rfl
  | filter =>
    simp only [runAhead, Run.bind_assoc]
    exact Run.bind_congr fun v _ => Run.bind_congr fun w _ => Run.bind_congr fun u _ => rfl

theorem extract_holding (hfunction : ∀ f text frame, v ≠ .function f text frame) :
    Path.extract (holding v) heldName = .ok v.orNull := by
  cases v with
  | function f text frame => exact absurd rfl (hfunction f text frame)
  | _ => rfl

/-- The second run goes on from the value that is held. -/
theorem runStages_back (c : Cut) (s : Stages)
    (hfunction : ∀ f text frame, v ≠ .function f text frame) :
    Spec.runStages (holding v) (c.back s) = c.runBehind s v := by
  have hfound : Spec.runFound (holding v) (c.back s) = pure v.orNull := by
    have hpath : Spec.runPath (holding v) (some heldName) = .ok v.orNull :=
      extract_holding hfunction
    cases c <;> simp only [Spec.runFound, back, hpath] <;> rfl
  rw [Spec.runStages_eq, hfound, Run.pure_bind, ← runBehind_orNull]
  cases c <;> rfl

/-- An extraction fails just as its stages in front of a cut do. If these yield a value that is no
function, then the extraction is that of the stages behind the cut from a source which holds this
value: it ends with the same result or failure, and its warnings are those of the first run and then
those of the second. -/
theorem run_structured_cut (c : Cut) (s : Stages) (source : Value) :
    (∀ e, ((Spec.structured (c.front s)).run source).outcome = .error e →
      (Spec.structured s).run source = (Spec.structured (c.front s)).run source) ∧
    ∀ v, ((Spec.structured (c.front s)).run source).outcome = .ok v →
      (∀ f text frame, v ≠ .function f text frame) →
      (Spec.structured s).run source =
        ((Spec.structured (c.back s)).run (holding v)).behind
          ((Spec.structured (c.front s)).run source).warnings := by
  simp only [Spec.run, runStages_front, runStages_eq_ahead_behind c source s]
  rcases c.runAhead source s with ⟨e | w, ws⟩
  · refine ⟨fun _ _ => rfl, fun v hv => ?_⟩
    cases hv
  · refine ⟨fun e he => ?_, fun v hv hfunction => ?_⟩
    · cases he
    · obtain rfl : w.orNull = v := Except.ok.inj hv
      have hwarnings : ((⟨.ok w, ws⟩ : Run Value) >>= fun v => pure v.orNull).warnings = ws :=
        List.append_nil ws
      rw [runStages_back c s hfunction, runBehind_orNull, hwarnings]
      rfl

end

/-- Stages that pick the first item of a list, and then filter and map it although it may be no
list. -/
def firstItem : Stages where
  path := some (units "items")
  transform := some (.builtin .first)
  filter := some (.all [])
  map := some { template := .ofString "x" }

open scoped SampleHost

/-- The text of a list is neither filtered nor mapped, so one warning is left on either side of the
cut behind the filter. -/
theorem run_firstItem_cut :
    ∃ source v front back, source = .mapping [(units "items", .list [.ofString "a"])] ∧
      front = (Spec.structured (Cut.filter.front firstItem)).run source ∧
      back = (Spec.structured (Cut.filter.back firstItem)).run (holding v) ∧
      front.outcome = .ok v ∧ (∀ f text frame, v ≠ .function f text frame) ∧
      front.warnings.length = 1 ∧ back.warnings.length = 1 ∧
      (Spec.structured firstItem).run source = back.behind front.warnings := by
  have hfront : ((Spec.structured (Cut.filter.front firstItem)).run
      (.mapping [(units "items", .list [.ofString "a"])])).outcome = .ok (.ofString "a") := rfl
  have hfunction : ∀ f text frame, Value.ofString "a" ≠ .function f text frame := nofun
  exact ⟨_, _, _, _, rfl, rfl, rfl, hfront, hfunction, rfl, rfl,
    (run_structured_cut .filter firstItem _).2 _ hfront hfunction⟩

end Cut

end TreeExtraction
