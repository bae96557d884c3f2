import TreeExtraction.Proofs.Extraction.Failing
import TreeExtraction.Proofs.Node.Reading
import TreeExtraction.Proofs.Value.WellFormed
import TreeExtraction.Value.SampleHost

/-! # The first task that fails

A conversion works through an agenda: on each node the base type, the type of an override, label,
icon, content lines, location, extra data and the selection of children, and then the agendas of the
children one after the other. The agenda is there before anything fails, as far as its tasks depend
on nothing but what was found before; a conversion that fails with a report fails as the first task
of its agenda that fails.

The extraction of a task is placed at its field and at the base type of its node, and no report of
the extraction itself has any other place. What is made of the extracted value afterwards is not
placed, and it has no reports of its own. Where a function of the host answers with a report, the
place that this names is kept, and from the text of a type, a label or an icon it comes through as
it is.
-/

namespace TreeExtraction

open Outcome Failure

/-! ## Tasks -/

/-- A piece of the work on a node. -/
inductive Job where
  | baseType
  | overrideType (spec : Spec)
  | label
  | icon (type : Option Text)
  | contentLines
  | sourceLocation
  | extra
  | children

/-- The field that a piece of work is for. -/
def Job.field : Job → FieldName
  | .baseType | .overrideType _ => .type
  | .label => .label
  | .icon _ => .icon
  | .contentLines => .contentLines
  | .sourceLocation => .sourceLocation
  | .extra => .extra
  | .children => .children

/-- A piece of work on the node of a source, with the base type of the node once it is known. -/
structure Task where
  source : Value
  base : Option Text
  job : Job

/-- The tasks that follow a piece of work, if it succeeds. -/
def following {α : Type} (r : Except Failure α) (next : α → List Task) : List Task :=
  match r with
  | .ok a => next a
  | .error _ => []

theorem following_map {α β : Type} (f : α → β) (r : Except Failure α) (next : β → List Task) :
    following (f <$> r) next = following r (next ∘ f) := by
  cases r <;> rfl

theorem mem_following {α : Type} {r : Except Failure α} {next : α → List Task} {t : Task} :
    t ∈ following r next ↔ ∃ a, r = .ok a ∧ t ∈ next a := by
  cases r with
  | error e => simp [following]
  | ok a => simp [following]

section Host

variable [PureHost]

/-- The sources of the children as they are found in a source. -/
def Definition.selection (d : Definition) (source : Value) (fields : Fields) :
    Except Failure (List Value) :=
  match fields.children with
  | .types included excluded => do
    let found ← source.listFields
    (d.candidates included excluded (scanned found)).outcome
  | .listed spec => do
    let v ← (spec.run source).outcome
    match v with
    | .undefined => .ok []
    | .null => .ok []
    | .array vs _ => .ok (Value.reading vs)
    | _ => .error (.structural (.children v.kind))

namespace Task

variable {d : Definition} {t : Task}

/-- The part of a task that is placed: what is extracted from the source. -/
def extraction (d : Definition) (t : Task) : Except Failure Value :=
  let fields := d.effectiveFields t.base
  match t.job with
  | .baseType => (d.fields.type.run t.source).outcome
  | .overrideType spec => (spec.run t.source).outcome
  | .label => (fields.label.run t.source).outcome
  | .icon _ => (fields.icon.run t.source).outcome
  | .contentLines => (fields.contentLines.run t.source).outcome
  | .sourceLocation => (fields.sourceLocation.run t.source).outcome
  | .extra => (Value.mapping ·) <$> ((fields.extra.run t.source).outcome >>= extraOf)
  | .children => Value.list <$> d.selection t.source fields

/-- The part of a task that is not placed: the text of a type, a label or an icon, or the icon of
the type where none is given. -/
def finish (d : Definition) (t : Task) (v : Value) : Except Failure Unit :=
  match t.job with
  | .baseType | .overrideType _ | .label => (fun _ => ()) <$> v.toText?
  | .icon type =>
    match v with
    | .undefined | .null | .text [] => (fun _ => ()) <$> Icon.resolve type d.icons d.iconPacks
    | _ => (fun _ => ()) <$> v.toText?
  | _ => .ok ()

/-- The context in which a task is extracted. -/
def place (t : Task) : Context :=
  Definition.fieldContext t.job.field t.base

/-- How a task ends. -/
def outcome (d : Definition) (t : Task) : Except Failure Unit :=
  inContext t.place (t.extraction d) >>= t.finish d

/-- Whether a task knows the base type of its source, or is to find it. -/
def KnowsBase (d : Definition) (t : Task) : Prop :=
  (t.job = .baseType ∧ t.base = none) ∨ (d.baseType t.source).outcome = .ok t.base

end Task

/-! ## Agendas -/

namespace Definition

/-- The task that an override makes of the type. -/
def typeTasks (d : Definition) (source : Value) (base : Option Text) : List Task :=
  (((d.overridesFor base).bind (·.type)).map fun spec => ⟨source, base, .overrideType spec⟩).toList

/-- The tasks on a node whose type is known. -/
def fieldTasks (source : Value) (base type : Option Text) : List Task :=
  [⟨source, base, .label⟩, ⟨source, base, .icon type⟩, ⟨source, base, .contentLines⟩,
    ⟨source, base, .sourceLocation⟩, ⟨source, base, .extra⟩, ⟨source, base, .children⟩]

/-- The tasks of a conversion in their order, those of a node before those of its children. -/
def agenda (d : Definition) : (limit : Nat) → Value → List Task
  | 0, _ => []
  | limit + 1, source =>
    ⟨source, none, .baseType⟩ :: following (d.baseType source).outcome fun base =>
      if d.isIgnored base then []
      else
        d.typeTasks source base ++ following (d.nodeType source base).outcome fun type =>
          fieldTasks source base type ++
            following (d.childSources source (d.effectiveFields base) base).outcome
              fun sources => sources.flatMap (d.agenda limit)

variable {d : Definition} {source : Value} {base type : Option Text} {limit : Nat} {t : Task}

theorem knowsBase_of_mem_agenda (h : t ∈ d.agenda limit source) : t.KnowsBase d := by
  induction limit generalizing source with
  | zero => cases h
  | succ limit ih =>
    rw [agenda] at h
    rcases List.mem_cons.1 h with rfl | h
    · exact .inl ⟨rfl, rfl⟩
    · obtain ⟨base, hbase, h⟩ := mem_following.1 h
      split at h
      · cases h
      · rcases List.mem_append.1 h with h | h
        · obtain ⟨spec, -, rfl⟩ := Option.map_eq_some_iff.1 (Option.mem_toList.1 h)
          exact .inr hbase
        · obtain ⟨type, -, h⟩ := mem_following.1 h
          rcases List.mem_append.1 h with h | h
          · simp only [fieldTasks, List.mem_cons, List.not_mem_nil, or_false] at h
            rcases h with rfl | rfl | rfl | rfl | rfl | rfl <;> exact .inr hbase
          · obtain ⟨sources, -, h⟩ := mem_following.1 h
            obtain ⟨c, -, h⟩ := List.mem_flatMap.1 h
            exact ih h

end Definition

/-! ## Working through tasks -/

/-- Whether an operation works through some tasks: the tasks in sequence succeed if it does, and
fail as it does, unless it runs out of the depth to which it is limited. -/
structure WorksThrough {α : Type} (d : Definition) (ts : List Task) (r : Except Failure α) :
    Prop where
  done : ∀ a, r = .ok a → forM ts (Task.outcome d) = .ok ()
  stuck : ∀ e, e ≠ .outOfRange → r = .error e → forM ts (Task.outcome d) = .error e

namespace WorksThrough

variable {α β : Type} {d : Definition} {t : Task} {ts us : List Task} {r : Except Failure α}

theorem ok (a : α) : WorksThrough d [] (.ok a : Except Failure α) where
  done _ _ := List.forM_nil
  stuck _ _ h := nomatch h

/-- Operations in sequence work through their tasks in sequence. -/
theorem bind {f : α → Except Failure β} (h : WorksThrough d ts r)
    (hf : ∀ a, r = .ok a → WorksThrough d us (f a)) : WorksThrough d (ts ++ us) (r >>= f) := by
  cases r with
  | error e =>
    refine ⟨nofun, fun e' he' herror => ?_⟩
    obtain rfl : e = e' := Except.error.inj herror
    rw [List.forM_append, h.stuck e he' rfl]
    rfl
  | ok a =>
    have hnext : forM (ts ++ us) (Task.outcome d) = forM us (Task.outcome d) := by
      rw [List.forM_append, h.done a rfl, ok_bind]
    exact ⟨fun b hb => hnext.trans ((hf a rfl).done b hb),
      fun e he herror => hnext.trans ((hf a rfl).stuck e he herror)⟩

theorem cons {f : α → Except Failure β} (h : WorksThrough d [t] r)
    (hf : ∀ a, r = .ok a → WorksThrough d us (f a)) : WorksThrough d (t :: us) (r >>= f) :=
  h.bind hf

/-- What follows a piece of work is known once it has succeeded. -/
theorem bind_following {f : α → Except Failure β} {next : α → List Task} (h : WorksThrough d ts r)
    (hf : ∀ a, r = .ok a → WorksThrough d (next a) (f a)) :
    WorksThrough d (ts ++ following r next) (r >>= f) :=
  h.bind fun a ha => by
    rw [ha]
    exact hf a ha

theorem bind_ok {f : α → β} (h : WorksThrough d ts r) :
    WorksThrough d ts (r >>= fun a => .ok (f a)) := by
  rw [← List.append_nil ts]
  exact h.bind fun a _ => .ok (f a)

/-- An operation that ends as a task does works through it. -/
theorem single (h : t.outcome d = (fun _ => ()) <$> r) : WorksThrough d [t] r := by
  have hforM : forM [t] (Task.outcome d) = (fun _ => ()) <$> r := by
    rw [List.forM_cons, h]
    cases r <;> rfl
  refine ⟨fun a ha => ?_, fun e _ he => ?_⟩
  · rw [hforM, ha, ok_map]
  · rw [hforM, he]
    rfl

/-- A placed extraction, and what is made of it. -/
theorem extraction_bind {extracted : Except Failure Value} {g : Value → Except Failure α}
    (hextracted : inContext t.place (t.extraction d) = extracted)
    (hfinish : ∀ v, t.finish d v = (fun _ => ()) <$> g v) :
    WorksThrough d [t] (extracted >>= g) := by
  refine single ?_
  rw [Task.outcome, hextracted]
  cases extracted with
  | error e => rfl
  | ok v => exact hfinish v

/-- A placed extraction of which nothing further is made. -/
theorem extraction {extracted : Except Failure α} {f : α → Value}
    (hextracted : t.extraction d = f <$> extracted) (hfinish : ∀ v, t.finish d v = .ok ()) :
    WorksThrough d [t] (inContext t.place extracted) := by
  refine single ?_
  rw [Task.outcome, hextracted]
  cases extracted with
  | error e => rfl
  | ok a => exact hfinish (f a)

end WorksThrough

namespace Definition

variable {d : Definition} {source : Value} {base type : Option Text} {limit : Nat}

theorem map_nodeTypeOf (v : Value) :
    (fun _ => ()) <$> nodeTypeOf v = (fun _ => ()) <$> v.toText? := by
  rw [nodeTypeOf]
  rcases v.toText? with e | _ | _ | _ <;> rfl

theorem worksThrough_foundType (d : Definition) (source : Value) :
    WorksThrough d [⟨source, none, .baseType⟩] (d.foundType source).outcome := by
  rw [foundType, Run.outcome_bind]
  exact .extraction_bind rfl fun v => (map_nodeTypeOf v).symm

theorem worksThrough_nodeType (d : Definition) (source : Value) (base : Option Text) :
    WorksThrough d (d.typeTasks source base) (d.nodeType source base).outcome := by
  rw [typeTasks, nodeType]
  cases (d.overridesFor base).bind (·.type) with
  | none => exact .ok base
  | some spec =>
    simp only [Run.outcome_bind]
    refine .extraction_bind rfl fun v => ?_
    rw [Run.outcome_lift]
    refine Eq.trans (map_nodeTypeOf v).symm ?_
    cases nodeTypeOf v <;> rfl

theorem worksThrough_label (d : Definition) (source : Value) (base type : Option Text) :
    WorksThrough d [⟨source, base, .label⟩]
      (label source (d.effectiveFields base) base type).outcome := by
  rw [label, Run.outcome_bind]
  refine .extraction_bind rfl fun v => ?_
  cases v <;> rfl

theorem worksThrough_icon (d : Definition) (source : Value) (base type : Option Text) :
    WorksThrough d [⟨source, base, .icon type⟩]
      (d.icon source (d.effectiveFields base) base type).outcome := by
  rw [icon, Run.outcome_bind]
  have hicon (r : Except Failure (Option Text)) :
      (fun _ => ()) <$> r = (fun _ => ()) <$> Icon.ofText? <$> r := by
    cases r <;> rfl
  refine .extraction_bind rfl fun v => ?_
  cases v with
  | undefined | null => rfl
  | text t => cases t <;> rfl
  | _ => exact hicon _

theorem outcome_childSources (d : Definition) (source : Value) (fields : Fields)
    (base : Option Text) : (d.childSources source fields base).outcome =
      inContext (fieldContext .children base) (d.selection source fields) := by
  rw [childSources, selection]
  cases fields.children with
  | types included excluded =>
    simp only [Run.outcome_within, Run.outcome_bind, Run.outcome_lift]
  | listed spec =>
    simp only [Run.outcome_bind, extractField, Run.outcome_within]
    cases (spec.run source).outcome with
    | error e => rfl
    | ok v => cases v <;> rfl

theorem worksThrough_collect
    (h : ∀ source, WorksThrough d (d.agenda limit source) (d.convertWithin limit source).outcome)
    (sources : List Value) : WorksThrough d (sources.flatMap (d.agenda limit))
      (collect (d.convertWithin limit) sources).outcome := by
  induction sources with
  | nil => exact .ok []
  | cons source sources ih =>
    rw [List.flatMap_cons, collect, Run.outcome_bind]
    refine (h source).bind fun first _ => ?_
    rw [Run.outcome_bind]
    exact ih.bind_ok

/-- A conversion works through its agenda. -/
theorem worksThrough_convertWithin (d : Definition) (limit : Nat) (source : Value) :
    WorksThrough d (d.agenda limit source) (d.convertWithin limit source).outcome := by
  induction limit generalizing source with
  | zero => exact ⟨nofun, fun e he herror => absurd (Except.error.inj herror).symm he⟩
  | succ limit ih =>
    rw [agenda, convertWithin, Run.outcome_bind, outcome_baseType, following_map]
    refine (worksThrough_foundType d source).bind_following fun found _ => ?_
    dsimp only [Function.comp]
    generalize found.name? = base
    cases d.isIgnored base with
    | true => exact .ok none
    | false =>
      simp only [Bool.false_eq_true, if_false, Run.outcome_bind]
      refine (worksThrough_nodeType d source base).bind_following fun type _ => ?_
      refine (worksThrough_label d source base type).cons fun label _ => ?_
      refine (worksThrough_icon d source base type).cons fun icon _ => ?_
      refine WorksThrough.cons (.extraction (id_map _).symm fun _ => rfl) fun lines _ => ?_
      refine WorksThrough.cons (.extraction (id_map _).symm fun _ => rfl) fun location _ => ?_
      refine WorksThrough.cons (.extraction (f := (Value.mapping ·)) ?_ fun _ => rfl)
        fun extra _ => ?_
      · rw [Run.outcome_bind]
        rfl
      rw [outcome_childSources]
      refine WorksThrough.bind_following (.extraction (f := Value.list) rfl fun _ => rfl)
        fun sources _ => ?_
      exact (worksThrough_collect ih sources).bind_ok

end Definition

/-! ## Failing tasks -/

namespace Selector

theorem unplaced_matchesAny (nodeType : Text) (patterns : List Text) :
    FailsOnly IsUnplaced (matchesAny nodeType patterns) := by
  induction patterns with
  | nil => exact failsOnly_ok _
  | cons p ps ih =>
    rw [matchesAny]
    split
    · exact failsOnly_error.2 trivial
    · exact failsOnly_ok _
    · exact ih

theorem unplaced_admits (included excluded : List Text) (nodeType : Text) :
    FailsOnly IsUnplaced (admits included excluded nodeType) := by
  rw [admits]
  split
  · exact failsOnly_ok _
  · refine (unplaced_matchesAny nodeType included).bind fun isIncluded _ => ?_
    split
    · exact (unplaced_matchesAny nodeType excluded).bind fun _ _ => failsOnly_ok _
    · exact failsOnly_ok _

end Selector

namespace Definition

theorem unplaced_isCandidate (d : Definition) (included excluded : List Text) (v : Value) :
    FailsOnly IsUnplaced (d.isCandidate included excluded v).outcome := by
  rw [isCandidate]
  split
  · rw [Run.outcome_bind]
    refine (Spec.unplaced_run _ _).bind fun found _ => ?_
    rw [Run.outcome_bind]
    refine FailsOnly.bind (found.unplaced_toText?.bind fun t _ => ?_) fun type _ => ?_
    · rcases t with _ | _ | _ <;> exact failsOnly_ok _
    · cases type with
      | named t => exact Selector.unplaced_admits included excluded t
      | null | undefined => exact failsOnly_ok _
  · exact failsOnly_ok _

theorem unplaced_candidates (d : Definition) (included excluded : List Text) (vs : List Value) :
    FailsOnly IsUnplaced (d.candidates included excluded vs).outcome := by
  induction vs with
  | nil => exact failsOnly_ok _
  | cons v vs ih =>
    rw [candidates, Run.outcome_bind]
    refine (d.unplaced_isCandidate included excluded v).bind fun keep _ => ?_
    rw [Run.outcome_bind]
    exact ih.bind fun rest _ => failsOnly_ok _

theorem unplaced_selection (d : Definition) (source : Value) (fields : Fields) :
    FailsOnly IsUnplaced (d.selection source fields) := by
  rw [selection]
  split
  · exact source.unplaced_listFields.bind fun _ _ => d.unplaced_candidates _ _ _
  · refine (Spec.unplaced_run _ _).bind fun v _ => ?_
    cases v with
    | undefined | null | array => exact failsOnly_ok _
    | _ => exact failsOnly_error.2 (.inl ⟨rfl, rfl⟩)

end Definition

theorem unplaced_extraOf (v : Value) : FailsOnly IsUnplaced (extraOf v) := by
  cases v with
  | undefined | null | mapping => exact failsOnly_ok _
  | map es =>
    refine (FailsOnly.mapM fun e _ => ?_).bind fun _ _ => failsOnly_ok _
    exact (unplaced_of_answered (Value.answered_spelled _)).bind fun _ _ => failsOnly_ok _
  | _ => exact failsOnly_error.2 (.inl ⟨rfl, rfl⟩)

theorem Icon.answered_resolve (type : Option Text) (icons : Table Text) (packs : List IconPack) :
    FailsOnly IsAnswered (resolve type icons packs) := by
  have hdirect (name : Text) : FailsOnly IsAnswered (direct? name icons packs) := by
    rw [direct?]
    split
    · exact failsOnly_ok _
    · split <;> exact failsOnly_ok _
    · exact failsOnly_error.2 trivial
    · exact failsOnly_ok _
  rw [resolve]
  split
  · exact failsOnly_ok _
  · refine (hdirect _).bind fun found _ => ?_
    cases found <;> exact failsOnly_ok _

namespace Task

variable {d : Definition} {t : Task} {cause : Cause} {c : Context}

theorem unplaced_extraction (d : Definition) (t : Task) :
    FailsOnly IsUnplaced (t.extraction d) := by
  rcases t with ⟨source, base, job⟩
  cases job with
  | extra => exact ((Spec.unplaced_run _ _).bind fun v _ => unplaced_extraOf v).map
  | children => exact (d.unplaced_selection _ _).map
  | _ => exact Spec.unplaced_run _ _

theorem answered_finish (d : Definition) (t : Task) (v : Value) :
    FailsOnly IsAnswered (t.finish d v) := by
  rcases t with ⟨source, base, job⟩
  cases job with
  | baseType | overrideType | label => exact v.answered_toText?.map
  | icon type =>
    rw [finish.eq_def]
    simp only
    split
    · exact (Icon.answered_resolve _ _ _).map
    · exact (Icon.answered_resolve _ _ _).map
    · exact (Icon.answered_resolve _ _ _).map
    · exact v.answered_toText?.map
  | _ => exact failsOnly_ok _

/-- How a task fails with a report: its extraction reports something, and the field of the task and
the base type of the node are added; or its extraction ends with the answer of a function of the
host that names a field or a type itself, and only what it leaves open is filled in; or a function
of the host that is asked for a text answers with a report, and nothing is added. -/
inductive FailsWith (d : Definition) (t : Task) (cause : Cause) : Context → Prop where
  | extraction {c : Context} (h : t.extraction d = .error (.report cause c))
      (hfield : c.field = none) (htype : c.nodeType = none) :
      FailsWith d t cause { c with field := some t.job.field.text, nodeType := t.base }
  | answer {c c' : Context} (h : t.extraction d = .error (.report cause c))
      (hanswer : (report cause c').IsAnswered) (hfield : c.field = c'.field)
      (htype : c.nodeType = c'.nodeType) (hplaced : c'.field ≠ none ∨ c'.nodeType ≠ none) :
      FailsWith d t cause (c.fill t.place)
  | text {v : Value} {c : Context} (h : t.extraction d = .ok v)
      (hfinish : t.finish d v = .error (.report cause c)) (hanswer : (report cause c).IsAnswered) :
      FailsWith d t cause c

theorem failsWith_of_extraction (h : t.extraction d = .error (.report cause c)) :
    t.FailsWith d cause (c.fill t.place) := by
  by_cases hplaced : c.field = none ∧ c.nodeType = none
  · have hfill : c.fill t.place =
        { c with field := some t.job.field.text, nodeType := t.base } := by
      simp [Context.fill, place, Definition.fieldContext, hplaced.1, hplaced.2]
    rw [hfill]
    exact .extraction h hplaced.1 hplaced.2
  · rcases unplaced_extraction d t _ h with hnone | ⟨c', hanswer, hfield, htype⟩
    · exact absurd hnone hplaced
    · refine .answer h hanswer hfield htype ?_
      rwa [hfield, htype, not_and_or] at hplaced

theorem failsWith_of_outcome (h : t.outcome d = .error (.report cause c)) :
    t.FailsWith d cause c := by
  cases hextraction : t.extraction d with
  | error e =>
    rw [outcome, hextraction] at h
    cases e with
    | report cause' inner =>
      obtain ⟨rfl, rfl⟩ : cause' = cause ∧ inner.fill t.place = c := by
        cases h
        exact ⟨rfl, rfl⟩
      exact failsWith_of_extraction hextraction
    | _ => cases h
  | ok v =>
    rw [outcome, hextraction] at h
    exact .text hextraction h (answered_finish d t v _ h)

end Task

namespace Definition

variable {d : Definition} {source : Value} {limit : Nat} {cause : Cause} {c : Context}

/-- A conversion that fails with a report fails as the first task of its agenda that fails, whose
base type is that of its own source. The report is that of the extraction, in which the field of the
task and this base type are filled in and all else is kept. A report with which a function of the
host answers keeps the place that it names, and comes through as it is where the function is asked
for a text. The message is the detail and then the context. -/
theorem exists_failing_task
    (h : (d.convertWithin limit source).outcome = .error (.report cause c)) :
    ∃ before t after, d.agenda limit source = before ++ t :: after ∧
      (∀ u ∈ before, u.outcome d = .ok ()) ∧ t.outcome d = .error (.report cause c) ∧
      t.KnowsBase d ∧ t.FailsWith d cause c ∧
      (Failure.report cause c).message? = some (cause.detail ++ c.text) := by
  have hforM := (worksThrough_convertWithin d limit source).stuck (.report cause c) nofun h
  obtain ⟨before, t, after, hagenda, hbefore, ht⟩ := exists_of_forM_eq_error hforM
  have hmem : t ∈ d.agenda limit source := by
    rw [hagenda]
    exact List.mem_append_right _ List.mem_cons_self
  exact ⟨before, t, after, hagenda, hbefore, ht, knowsBase_of_mem_agenda hmem,
    Task.failsWith_of_outcome ht, rfl⟩

end Definition

end Host

open scoped SampleHost

namespace Definition

/-- Labels in capital letters. -/
def capitals : Definition :=
  { default with fields := { default.fields with
      label := .structured {
        path := some FieldName.label.text
        transform := some (.builtin .upper) } } }

/-- A number is no label in capital letters, and the report names the type of its own node. -/
theorem failsWith_label_below_list :
    ∃ source cause c before t after,
      source = plainSource "list" [.mapping [(FieldName.type.text, .ofString "text"),
        (FieldName.label.text, .number .zero)]] ∧
      (capitals.convert source).outcome = .error (.report cause c) ∧
      c = { field := some FieldName.label.text, nodeType := some (units "text"),
            transform := some (units "upper") } ∧
      capitals.agenda (source.depth + depthMargin) source = before ++ t :: after ∧
      t.KnowsBase capitals ∧ t.FailsWith capitals cause c := by
  have hconvert : (capitals.convert (plainSource "list" [.mapping [
      (FieldName.type.text, .ofString "text"), (FieldName.label.text, .number .zero)]])).outcome =
        .error (.report (.mismatch (.input (units "upper") (units "string") (units "number")))
          { field := some FieldName.label.text, nodeType := some (units "text"),
            transform := some (units "upper") }) := rfl
  obtain ⟨before, t, after, hagenda, -, -, hbase, hfails, -⟩ := exists_failing_task hconvert
  exact ⟨_, _, _, before, t, after, rfl, hconvert, rfl, hagenda, hbase, hfails⟩

/-- A source whose label JSON cannot write and a function of the host spells out. -/
def answeringLabel : Value :=
  .mapping [(FieldName.label.text, .mapping [
    (Value.spellingName, SampleFunction.raiseSpec.value), (units "n", .bigint 1)])]

theorem convert_answeringLabel : (default.convert answeringLabel).outcome =
    .error (.report (.raised .spec (units "custom spec failure")) { path := some (units "p") }) :=
  rfl

/-- The report of a function of the host that is asked for the text of a label names no field. -/
theorem not_forall_field_of_failing_task :
    ¬∀ (d : Definition) (source : Value) (cause : Cause) (c : Context),
      source.isWellFormed = true → (d.convert source).outcome = .error (.report cause c) →
      ∃ t ∈ d.agenda (source.depth + depthMargin) source,
        t.outcome d = .error (.report cause c) ∧ c.field = some t.job.field.text ∧
          c.nodeType = t.base := by
  intro h
  obtain ⟨t, -, -, hfield, -⟩ := h default answeringLabel _ _ (by decide) convert_answeringLabel
  cases hfield

end Definition

end TreeExtraction
