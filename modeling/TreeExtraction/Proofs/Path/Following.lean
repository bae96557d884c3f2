import Mathlib.Data.List.Induction
import TreeExtraction.Path.Evaluation
import TreeExtraction.Proofs.Value.Access
import TreeExtraction.Proofs.Value.Data

/-! # Following paths

A path is followed step by step, so following the steps of two paths in a row is following the one
and then the other from what it finds. Absent data are passed on as null. A path fails only at a key
of a value that has no keys, at a name that an object bars, and where a capability on its way does;
if these always answer, the step at which a path stops is determined, and the failure with it.
-/

namespace TreeExtraction

open Outcome

/-! ## Steps -/

/-- The failure of a path, seen from `n` steps before it. -/
def Failure.behind (n : Nat) : Failure → Failure
  | .report cause context =>
    .report cause { context with stepIndex := context.stepIndex.map (· + n) }
  | e => e

namespace Value

variable [PureHost] {u v w : Value} {s : Step}

/-- Whether steps lead from a value to another one. -/
inductive Reaches (v : Value) : Value → Prop
  | here : Reaches v v
  | step {u w : Value} {s : Step} (hu : Reaches v u) (h : Path.takeStep u s = .ok w) : Reaches v w

theorem Reaches.trans (hu : v.Reaches u) (hw : u.Reaches w) : v.Reaches w := by
  induction hw with
  | here => exact hu
  | step _ h ih => exact .step ih h

/-- Whether the capability of a value, if it has one, always answers. -/
def Answers (v : Value) : Prop :=
  ∀ f, v.method? capabilityName = some f → ∀ name, ∃ u, ask f v name = .ok u

/-- Whether the capabilities of all values to which steps lead always answer. -/
def IsAnswering (v : Value) : Prop :=
  ∀ w, v.Reaches w → w.Answers

theorem answers_of_method (h : v.method? capabilityName = none) : v.Answers :=
  fun _ hf => nomatch h.symm.trans hf

namespace IsAnswering

theorem here (h : v.IsAnswering) : v.Answers :=
  h v .here

theorem reaches (h : v.IsAnswering) (hw : v.Reaches w) : w.IsAnswering :=
  fun u hu => h u (hw.trans hu)

end IsAnswering

/-- From nothing, steps lead nowhere. -/
theorem Reaches.isNull (h : v.Reaches w) (hv : v.isNull = true) : w.isNull = true := by
  induction h with
  | here => exact hv
  | @step u w s _ h ih =>
    cases u with
    | undefined | null =>
      cases s <;> cases h <;> rfl
    | _ => cases ih

theorem isAnswering_of_isNull (h : v.isNull = true) : v.IsAnswering := by
  intro w hw
  have hnull := hw.isNull h
  cases w with
  | undefined | null => exact answers_of_method rfl
  | _ => cases hnull

end Value

namespace Path

variable {v w : Value} {text : Text} {ss ss₁ ss₂ : List Step} {s : Step} {i j n taken : Nat}
  {e : Failure}

/-- The steps that cannot be taken from a value, with their failures: a key of a value that has no
keys, and a field or key that an object bars. -/
inductive IsRefused : Value → Step → Failure → Prop
  | keyless {v : Value} {k : Text} (hv : v.isKeyless = true) :
      IsRefused v (.key k) (.report (.keylessAccess k v.kind) {})
  | barredField {v : Value} {name : Text} (hname : v.bars name = true)
      (hnone : v.method? Value.capabilityName = none) :
      IsRefused v (.attribute name) .unsupported
  | barredKey {v : Value} {k : Text} (hkey : v.bars k = true)
      (hnone : v.method? Value.capabilityName = none) (hkeys : v.isKeyless = false) :
      IsRefused v (.key k) .unsupported

theorem IsRefused.isNull_eq_false (h : IsRefused v s e) : v.isNull = false := by
  cases h with
  | keyless hv => cases v <;> first | rfl | cases hv
  | barredField hname => cases v <;> first | rfl | cases hname
  | barredKey hkey => cases v <;> first | rfl | cases hkey

theorem IsRefused.behind_within (h : IsRefused v s e) (text : Text) (i : Nat) :
    (e.within { path := some text, stepIndex := some 0 }).behind i =
      e.within { path := some text, stepIndex := some i } := by
  cases h with
  | keyless hv => simp [Failure.within, Failure.behind, Context.fill]
  | barredField | barredKey => rfl

variable [PureHost]

theorem isFoundIn_takeStep (hv : v.AnswersInside) (h : takeStep v s = .ok w) : v.IsFoundIn w := by
  match s with
  | .attribute name => exact Value.isFoundIn_getField hv h
  | .index k =>
    cases h
    exact Value.isFoundIn_getIndex v k
  | .key k => exact Value.isFoundIn_getKey hv h

theorem IsRefused.takeStep_eq (h : IsRefused v s e) : takeStep v s = .error e := by
  cases h with
  | keyless hv => exact Value.getKey_of_isKeyless hv
  | barredField hname hnone => exact Value.getField_eq_error_iff.2 (.inr ⟨hnone, hname, rfl⟩)
  | barredKey hkey hnone hkeys => exact Value.getKey_of_bars hnone hkeys hkey

/-- Where capabilities answer, a step fails only if it is refused. -/
theorem isRefused_of_takeStep (hv : v.Answers) (h : takeStep v s = .error e) :
    IsRefused v s e := by
  have hask {f : Nat} {name : Text} (hf : v.method? Value.capabilityName = some f) :
      Value.ask f v name ≠ .error e := by
    obtain ⟨u, hu⟩ := hv f hf name
    simp [hu]
  match s with
  | .attribute name =>
    rcases Value.getField_eq_error_iff.1 h with ⟨f, hf, herror⟩ | ⟨hnone, hname, rfl⟩
    · exact absurd herror (hask hf)
    · exact .barredField hname hnone
  | .index k => cases h
  | .key k =>
    rcases Value.getKey_eq_error h with
      ⟨f, hf, herror⟩ | ⟨hkeyless, rfl⟩ | ⟨hnone, hkeys, hkey, rfl⟩
    · exact absurd herror (hask hf)
    · exact .keyless hkeyless
    · exact .barredKey hkey hnone hkeys

theorem stepIndex_of_takeStep (hv : v.Answers) {cause : Cause} {context : Context}
    (h : takeStep v s = .error (.report cause context)) : context.stepIndex = none := by
  cases isRefused_of_takeStep hv h
  rfl

/-- A step further in front takes the same failure to a higher index. -/
theorem inContext_takeStep_add (hv : v.Answers) (text : Text) (taken n : Nat) (s : Step) :
    inContext { path := some text, stepIndex := some (taken + n) } (takeStep v s) =
      (inContext { path := some text, stepIndex := some taken } (takeStep v s)).mapError
        (.behind n) := by
  cases h : takeStep v s with
  | ok next => rfl
  | error e =>
    cases e with
    | report cause context =>
      have hcontext := stepIndex_of_takeStep hv h
      simp [inContext, Except.mapError, Failure.within, Failure.behind, Context.fill, hcontext]
    | _ => rfl

/-! ## Paths in a row -/

theorem followFrom_of_isNull (h : v.isNull = true) : followFrom text taken v ss = .ok .null := by
  cases ss with
  | nil => cases v <;> first | rfl | cases h
  | cons s ss => rw [followFrom, if_pos h]

theorem followFrom_orNull : followFrom text taken v.orNull ss = followFrom text taken v ss := by
  cases v with
  | undefined => rw [followFrom_of_isNull rfl, followFrom_of_isNull rfl]
  | _ => rfl

theorem followFrom_append (text : Text) (taken : Nat) (v : Value) (ss₁ ss₂ : List Step) :
    followFrom text taken v (ss₁ ++ ss₂) =
      followFrom text taken v ss₁ >>= fun w => followFrom text (taken + ss₁.length) w ss₂ := by
  induction ss₁ generalizing v taken with
  | nil => exact followFrom_orNull.symm
  | cons s ss₁ ih =>
    rw [List.cons_append, followFrom, followFrom]
    split
    · exact (followFrom_of_isNull rfl).symm
    · simp only [ih, bind_assoc, List.length_cons, Nat.add_assoc, Nat.add_comm 1]

theorem followFrom_add (hv : v.IsAnswering) (text : Text) (taken n : Nat) (ss : List Step) :
    followFrom text (taken + n) v ss = (followFrom text taken v ss).mapError (.behind n) := by
  induction ss generalizing v taken with
  | nil => rfl
  | cons s ss ih =>
    rw [followFrom, followFrom, inContext_takeStep_add hv.here, Nat.add_right_comm]
    split
    · rfl
    · cases hnext : takeStep v s with
      | error e => rfl
      | ok next => exact ih (hv.reaches (.step .here hnext)) (taken + 1)

/-- What a path finds has been reached, or nothing has been found. -/
theorem reaches_of_followFrom (h : followFrom text taken v ss = .ok w) :
    v.Reaches w ∨ w = .null := by
  induction ss generalizing v taken with
  | nil =>
    cases h
    cases v with
    | undefined => exact .inr rfl
    | _ => exact .inl .here
  | cons s ss ih =>
    rw [followFrom] at h
    split at h
    · cases h
      exact .inr rfl
    · obtain ⟨next, hnext, h⟩ := bind_eq_ok.1 h
      exact (ih h).imp_left (.trans (.step .here (inContext_eq_ok.1 hnext)))

theorem isAnswering_followFrom (hv : v.IsAnswering) (h : followFrom text taken v ss = .ok w) :
    w.IsAnswering := by
  rcases reaches_of_followFrom h with hw | rfl
  · exact hv.reaches hw
  · exact Value.isAnswering_of_isNull rfl

/-- Following two paths in a row is following the second one from what the first one finds. -/
theorem follow_append (hv : v.IsAnswering) (ss₁ ss₂ : List Step) (text : Text) :
    follow v (ss₁ ++ ss₂) (some text) = follow v ss₁ (some text) >>= fun w =>
      (follow w ss₂ (some text)).mapError (.behind ss₁.length) := by
  simp only [follow, Option.getD_some, followFrom_append]
  refine bind_congr fun w hw => ?_
  rw [followFrom_add (isAnswering_followFrom hv hw)]

theorem follow_cons (hv : v.IsAnswering) (s : Step) (ss : List Step) (text : Text) :
    follow v (s :: ss) (some text) = follow v [s] (some text) >>= fun w =>
      (follow w ss (some text)).mapError (.behind 1) :=
  follow_append hv [s] ss text

/-- What every answer takes over from the value that is asked, a path takes over from its source. -/
theorem of_reaches {Q : Value → Prop} (hinside : ∀ u, Q u → u.AnswersInside)
    (hQ : ∀ u w, Q u → u.IsFoundIn w → Q w) (hv : Q v) (h : v.Reaches w) : Q w := by
  induction h with
  | here => exact hv
  | step _ h ih => exact hQ _ _ ih (isFoundIn_takeStep (hinside _ ih) h)

theorem of_follow {Q : Value → Prop} {path : Option Text} (hinside : ∀ u, Q u → u.AnswersInside)
    (hQ : ∀ u w, Q u → u.IsFoundIn w → Q w) (hv : Q v) (h : follow v ss path = .ok w) : Q w := by
  rcases reaches_of_followFrom h with hw | rfl
  · exact of_reaches hinside hQ hv hw
  · exact hQ _ _ hv Value.isFoundIn_null

theorem of_extract {Q : Value → Prop} {t : Text} (hinside : ∀ u, Q u → u.AnswersInside)
    (hQ : ∀ u w, Q u → u.IsFoundIn w → Q w) (hv : Q v) (h : extract v t = .ok w) : Q w := by
  obtain ⟨ss, -, h⟩ := bind_eq_ok.1 h
  exact of_follow hinside hQ hv h

end Path

namespace Value

variable [PureHost] {v : Value}

/-- Capabilities that answer with what their objects hold answer on every path if they do in the
source. -/
theorem isAnswering_of_throughout (h : v.Throughout parts fun w => w.AnswersInside ∧ w.Answers) :
    v.IsAnswering := by
  have hbare (u : Value) (hu : u.IsBare) : u.AnswersInside ∧ u.Answers :=
    ⟨hu.answersInside, answers_of_method hu.method?_eq_none⟩
  intro w hw
  have hthroughout := Path.of_reaches (fun u hu => hu.here.1)
    (fun u w hu huw => Throughout.answer hbare hu huw) h hw
  exact hthroughout.here.2

theorem IsData.answersInside (h : v.IsData) : v.AnswersInside :=
  answersInside_of_method (h.method?_eq_none capabilityName)

/-- Data have no capabilities, so they have none that fails. -/
theorem IsData.isAnswering (h : v.IsData) : v.IsAnswering :=
  isAnswering_of_throughout <| h.imp fun _ (hw : IsData _) =>
    ⟨hw.answersInside, answers_of_method (hw.method?_eq_none capabilityName)⟩

end Value

namespace Path

variable [PureHost] {v w : Value} {text : Text} {ss ss₁ ss₂ : List Step} {s : Step} {i j : Nat}
  {e : Failure}

/-! ## Where a path stops -/

/-- Whether the steps before step `i` lead to a value from which it cannot be taken, a failure to
which the path and the step are added. -/
def StopsAt (v : Value) (ss : List Step) (text : Text) (i : Nat) (e : Failure) : Prop :=
  ∃ s w refused, ss[i]? = some s ∧ follow v (ss.take i) (some text) = .ok w ∧
    IsRefused w s refused ∧ refused.within { path := some text, stepIndex := some i } = e

theorem IsRefused.follow_singleton (h : IsRefused v s e) (text : Text) :
    follow v [s] (some text) = .error (e.within { path := some text, stepIndex := some 0 }) := by
  rw [follow, followFrom, h.isNull_eq_false, h.takeStep_eq]
  rfl

/-- Where capabilities answer, a step fails only if it is refused. -/
theorem isRefused_of_follow (hv : v.Answers) (h : follow v [s] (some text) = .error e) :
    ∃ refused, IsRefused v s refused ∧
      refused.within { path := some text, stepIndex := some 0 } = e := by
  rw [follow, followFrom] at h
  split at h
  · cases h
  · cases htake : takeStep v s with
    | ok next =>
      rw [htake] at h
      cases h
    | error refused =>
      rw [htake] at h
      cases h
      exact ⟨refused, isRefused_of_takeStep hv htake, rfl⟩

namespace StopsAt

/-- A path fails where it stops, whatever follows. -/
theorem follow_eq (hv : v.IsAnswering) (h : StopsAt v ss text i e) :
    follow v ss (some text) = .error e := by
  obtain ⟨s, w, refused, hs, hw, hrefused, rfl⟩ := h
  obtain ⟨hi, rfl⟩ := List.getElem?_eq_some_iff.1 hs
  have hlength : (ss.take i).length = i := List.length_take_of_le hi.le
  have hsplit : ss = ss.take i ++ ss[i] :: ss.drop (i + 1) := by
    rw [← List.drop_eq_getElem_cons hi, List.take_append_drop]
  have hwv : w.IsAnswering := isAnswering_followFrom hv hw
  rw [hsplit, follow_append hv, hw, ok_bind, follow_cons hwv, hrefused.follow_singleton, hlength]
  exact congrArg Except.error (hrefused.behind_within text i)

/-- Where a path stops depends on its steps up to there only. -/
theorem of_take_eq (h : StopsAt v ss₁ text i e) (htake : ss₁.take (i + 1) = ss₂.take (i + 1)) :
    StopsAt v ss₂ text i e := by
  obtain ⟨s, w, refused, hs, hw, hrefused⟩ := h
  have hbefore : ss₁.take i = ss₂.take i := by
    simpa [List.take_take] using congrArg (List.take i) htake
  refine ⟨s, w, refused, ?_, hbefore ▸ hw, hrefused⟩
  rw [← hs, ← List.getElem?_take_of_succ, ← htake, List.getElem?_take_of_succ]

theorem append (h : StopsAt v ss text i e) (more : List Step) :
    StopsAt v (ss ++ more) text i e := by
  obtain ⟨s, -, -, hs, -⟩ := id h
  have hi : i < ss.length := (List.getElem?_eq_some_iff.1 hs).1
  exact h.of_take_eq (List.take_append_of_le_length hi).symm

/-- A path stops at one step at most, since it does not get beyond it. -/
theorem index_unique (hv : v.IsAnswering) {e' : Failure} (h : StopsAt v ss text i e)
    (h' : StopsAt v ss text j e') : i = j := by
  have hle {i j : Nat} {e e' : Failure} (h : StopsAt v ss text i e)
      (h' : StopsAt v ss text j e') : j ≤ i := by
    by_contra hlt
    obtain ⟨-, w, -, -, hw, -⟩ := h'
    have hbefore : StopsAt v (ss.take j) text i e :=
      h.of_take_eq (by rw [List.take_take, min_eq_left (by omega)])
    rw [hbefore.follow_eq hv] at hw
    cases hw
  exact Nat.le_antisymm (hle h' h) (hle h h')

end StopsAt

/-- Where capabilities answer, a path fails only because it stops at one of its steps. -/
theorem exists_stopsAt (hv : v.IsAnswering) (h : follow v ss (some text) = .error e) :
    ∃ i, StopsAt v ss text i e := by
  induction ss using List.reverseRecOn generalizing e with
  | nil => cases h
  | append_singleton ss s ih =>
    rw [follow_append hv] at h
    cases hstart : follow v ss (some text) with
    | error e' =>
      rw [hstart] at h
      cases h
      obtain ⟨i, hi⟩ := ih hstart
      exact ⟨i, hi.append [s]⟩
    | ok w =>
      rw [hstart, ok_bind] at h
      have hw : w.IsAnswering := isAnswering_followFrom hv hstart
      cases hlast : follow w [s] (some text) with
      | ok u =>
        rw [hlast] at h
        cases h
      | error first =>
        rw [hlast] at h
        cases h
        obtain ⟨refused, hrefused, rfl⟩ := isRefused_of_follow hw.here hlast
        exact ⟨ss.length, s, w, refused, by simp, by simpa using hstart, hrefused,
          (hrefused.behind_within text ss.length).symm⟩

/-- Following two paths in a row is following the second one from what the first one finds, with
the steps counted on. From a value whose capabilities answer, a path fails exactly if it stops at
one of its steps, the first that cannot be taken, with the failure of that step: a key of a value
that has no keys, or a name that an object bars. From absent data no path fails. -/
theorem follow_append_and_stops (hv : v.IsAnswering) :
    (∀ ss₁ ss₂, follow v (ss₁ ++ ss₂) (some text) = follow v ss₁ (some text) >>= fun w =>
      (follow w ss₂ (some text)).mapError (.behind ss₁.length)) ∧
    (∀ ss e, follow v ss (some text) = .error e ↔
      ∃ i, StopsAt v ss text i e ∧ ∀ j e', StopsAt v ss text j e' → i ≤ j) ∧
    ∀ ss w, w.isNull = true → follow w ss (some text) = .ok .null := by
  refine ⟨fun ss₁ ss₂ => follow_append hv ss₁ ss₂ text, fun ss e => ⟨fun h => ?_, ?_⟩,
    fun ss w hw => followFrom_of_isNull hw⟩
  · obtain ⟨i, hi⟩ := exists_stopsAt hv h
    exact ⟨i, hi, fun j e' hj => (hi.index_unique hv hj).le⟩
  · rintro ⟨i, hi, -⟩
    exact hi.follow_eq hv

end Path

namespace Path

open scoped SampleHost

/-- A function of the host has a name and a length. -/
theorem throughout_sample (f : SampleFunction) :
    f.value.Throughout Value.parts fun w => w.AnswersInside ∧ w.Answers := by
  refine .intro ⟨Value.answersInside_of_method rfl, Value.answers_of_method rfl⟩ fun w hw => ?_
  have hscalar : w.isScalar = true := by
    rcases List.mem_cons.1 hw with rfl | hw
    · rfl
    · rw [List.mem_singleton.1 hw]
      rfl
  have hbare (u : Value) (hu : u.IsBare) : u.AnswersInside ∧ u.Answers :=
    ⟨hu.answersInside, Value.answers_of_method hu.method?_eq_none⟩
  have hw := hbare w (.scalar hscalar)
  exact (Value.IsBare.scalar hscalar).throughout hw (hbare _ (.mapping .root))

/-- A capability answers with a number, which has no keys. -/
theorem follow_append_and_stops_number :
    let source : Value := .mapping [(Value.capabilityName, SampleFunction.fortyTwo.value)]
    let ss : List Step := [.attribute (units "n"), .key (units "k"), .attribute (units "x")]
    let e : Failure := .report (.keylessAccess (units "k") (units "number"))
      { path := some (units "n[k].x"), stepIndex := some 1 }
    source.IsAnswering ∧ StopsAt source ss (units "n[k].x") 1 e ∧
      follow source ss (some (units "n[k].x")) = .error e := by
  intro source ss e
  have hcapability (f : Nat) (name : Text) (hf : source.method? Value.capabilityName = some f) :
      Value.ask f source name = .ok (.number (.ofNat 42)) := by
    cases hf
    rfl
  have hsource : source.AnswersInside ∧ source.Answers := by
    refine ⟨fun f name w hf hw => ?_, fun f hf name => ⟨_, hcapability f name hf⟩⟩
    cases (hcapability f name hf).symm.trans hw
    exact .inr rfl
  have hanswering : source.IsAnswering := by
    refine Value.isAnswering_of_throughout (.intro hsource ?_)
    exact List.forall_mem_singleton.2 (throughout_sample .fortyTwo)
  have hstops : StopsAt source ss (units "n[k].x") 1 e :=
    ⟨.key (units "k"), .number (.ofNat 42), _, rfl, rfl, .keyless rfl, rfl⟩
  exact ⟨hanswering, hstops, ((follow_append_and_stops hanswering).2.1 ss e).2
    ⟨1, hstops, fun j e' hj => (hstops.index_unique hanswering hj).le⟩⟩

/-- A function bars a field, though no key is asked for. -/
theorem not_forall_follow_error_iff :
    ¬∀ (v : Value) (ss : List Step) (text : Text), v.isWellFormed = true → v.IsAnswering →
      ((∃ e, follow v ss (some text) = .error e) ↔
        ∃ i k w, ss[i]? = some (.key k) ∧ follow v (ss.take i) (some text) = .ok w ∧
          w.isKeyless = true) := by
  intro h
  have hanswering : SampleFunction.identity.value.IsAnswering :=
    Value.isAnswering_of_throughout (throughout_sample .identity)
  obtain ⟨i, k, w, hstep, -⟩ :=
    (h SampleFunction.identity.value [.attribute (units "caller")] (units "caller") rfl
      hanswering).1 ⟨.unsupported, rfl⟩
  cases i <;> cases hstep

end Path

end TreeExtraction
