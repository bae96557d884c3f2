import TreeExtraction.Extraction.Pipeline
import TreeExtraction.Proofs.Outcome
import TreeExtraction.Proofs.Value.Access

/-! # Extractions know nothing of nodes

An extraction knows its path and step, its transform and its operator, but neither the field that it
is for nor the type of a node: all its failures leave these open, so that whoever runs it can fill
them in. Only a function of the host can answer with a report that names them already. The text of a
value has no report of its own at all; every one that comes of it is the answer of a function.
-/

namespace TreeExtraction

open Outcome

variable [PureHost] {v : Value} {es : Entries}

/-! ## Failures that are not placed -/

namespace Failure

/-- Whether a failure is no report, or one with which a function of the host answers. -/
def IsAnswered : Failure → Prop
  | .report cause c => ∃ f this arguments,
    PureHost.answer f this arguments = .error (.report cause c)
  | _ => True

/-- Whether a failure names neither a field nor the type of a node, unless a function of the host
answers with a report that does. -/
def IsUnplaced : Failure → Prop
  | .report cause c => (c.field = none ∧ c.nodeType = none) ∨ ∃ c' : Context,
    (report cause c').IsAnswered ∧ c.field = c'.field ∧ c.nodeType = c'.nodeType
  | _ => True

theorem IsAnswered.isUnplaced {e : Failure} (h : e.IsAnswered) : e.IsUnplaced := by
  cases e with
  | report cause c => exact .inr ⟨c, h, rfl, rfl⟩
  | _ => trivial

theorem IsUnplaced.within {e : Failure} {c : Context} (h : e.IsUnplaced) (hfield : c.field = none)
    (htype : c.nodeType = none) : (e.within c).IsUnplaced := by
  cases e with
  | report cause inner =>
    have hplace : (inner.fill c).field = inner.field ∧
        (inner.fill c).nodeType = inner.nodeType := by
      simp [Context.fill, hfield, htype]
    rw [Failure.within, IsUnplaced, hplace.1, hplace.2]
    exact h
  | _ => trivial

end Failure

open Failure

theorem unplaced_of_answered {α : Type} {r : Except Failure α} (h : FailsOnly IsAnswered r) :
    FailsOnly IsUnplaced r :=
  h.imp fun _ => IsAnswered.isUnplaced

/-- Filling in a context that has no place leaves failures without one. -/
theorem unplaced_inContext {α : Type} {r : Except Failure α} {c : Context}
    (h : FailsOnly IsUnplaced r) (hfield : c.field = none) (htype : c.nodeType = none) :
    FailsOnly IsUnplaced (inContext c r) :=
  h.inContext fun _ he => he.within hfield htype

theorem PureHost.answered_answer (f : Nat) (this : Value) (arguments : List Value) :
    FailsOnly IsAnswered (answer f this arguments) := by
  intro e he
  cases e with
  | report cause c => exact ⟨f, this, arguments, he⟩
  | _ => trivial

/-! ## Texts -/

namespace Value

section

variable {answered : Value → Except Failure (Option Text)}

theorem answered_jsonBy (h : ∀ v, FailsOnly IsAnswered (answered v)) (key : Text) (v : Value)
    {written : Except Failure (Option Text)} (hwritten : FailsOnly IsAnswered written) :
    FailsOnly IsAnswered (jsonBy answered key v written) := by
  rw [jsonBy]
  split
  · exact (PureHost.answered_answer _ _ _).bind fun v _ => h v
  · exact hwritten

mutual

theorem answered_jsonBody (h : ∀ v, FailsOnly IsAnswered (answered v)) (v : Value) :
    FailsOnly IsAnswered (jsonBody answered v) := by
  cases v with
  | array items =>
    rw [jsonBody]
    exact (answered_jsonItems h 0 items).bind fun _ _ => failsOnly_ok _
  | mapping es =>
    rw [jsonBody]
    split
    · exact failsOnly_error.2 trivial
    · exact (answered_jsonEntries h es).bind fun _ _ => failsOnly_ok _
  | date _ frame | invalidDate _ frame =>
    rw [jsonBody]
    split
    · exact answered_jsonFrame h frame
    · exact failsOnly_ok _
  | map _ frame | set _ _ frame | object _ frame =>
    rw [jsonBody]
    exact answered_jsonFrame h frame
  | bigint => exact failsOnly_error.2 trivial
  | _ => exact failsOnly_ok _

theorem answered_jsonItems (h : ∀ v, FailsOnly IsAnswered (answered v)) (position : Nat)
    (items : List (Option Value)) : FailsOnly IsAnswered (jsonItems answered position items) := by
  match items with
  | [] => exact failsOnly_ok _
  | none :: items =>
    rw [jsonItems]
    exact (answered_jsonItems h (position + 1) items).bind fun _ _ => failsOnly_ok _
  | some v :: items =>
    rw [jsonItems]
    exact (answered_jsonBy h _ v (answered_jsonBody h v)).bind fun _ _ =>
      (answered_jsonItems h (position + 1) items).bind fun _ _ => failsOnly_ok _

theorem answered_jsonEntries (h : ∀ v, FailsOnly IsAnswered (answered v))
    (es : List (Text × Value)) : FailsOnly IsAnswered (jsonEntries answered es) := by
  match es with
  | [] => exact failsOnly_ok _
  | (k, v) :: es =>
    rw [jsonEntries]
    refine (answered_jsonBy h k v (answered_jsonBody h v)).bind fun first _ =>
      (answered_jsonEntries h es).bind fun rest _ => ?_
    cases first <;> exact failsOnly_ok _

theorem answered_jsonFrame (h : ∀ v, FailsOnly IsAnswered (answered v)) (frame : Frame Value) :
    FailsOnly IsAnswered (jsonFrame answered frame) := by
  obtain ⟨_, fields, _, _⟩ := frame
  rw [jsonFrame]
  exact (answered_jsonEntries h fields).bind fun _ _ => failsOnly_ok _

end

end

theorem answered_jsonAnswer (depth : Nat) (v : Value) :
    FailsOnly IsAnswered (jsonAnswer depth v) := by
  induction depth generalizing v with
  | zero => exact failsOnly_error.2 trivial
  | succ depth ih => exact answered_jsonBody ih v

theorem answered_json (key : Text) (v : Value) : FailsOnly IsAnswered (json key v) :=
  answered_jsonBy (answered_jsonAnswer _) key v (answered_jsonBody (answered_jsonAnswer _) v)

theorem answered_primitiveBy (v : Value) (name : Text) {common : Except Failure (Option Value)}
    (hcommon : FailsOnly IsAnswered common) :
    FailsOnly IsAnswered (primitiveBy v name common) := by
  rw [primitiveBy.eq_def]
  split
  · exact (PureHost.answered_answer _ _ _).bind fun _ _ => failsOnly_ok _
  · exact failsOnly_ok _
  · exact hcommon

theorem answered_primitiveOf (v : Value) {spelling : Except Failure (Option Value)}
    (value : Option Value) (hspelling : FailsOnly IsAnswered spelling) :
    FailsOnly IsAnswered (primitiveOf v spelling value) := by
  refine (answered_primitiveBy v _ hspelling).bind fun found _ => ?_
  cases found with
  | some answer => exact failsOnly_ok _
  | none =>
    refine (answered_primitiveBy v _ (failsOnly_ok value)).bind fun found _ => ?_
    cases found with
    | some answer => exact failsOnly_ok _
    | none => exact failsOnly_error.2 trivial

theorem answered_plainText (v : Value) : FailsOnly IsAnswered v.plainText := by
  cases v <;> first | exact failsOnly_ok _ | exact failsOnly_error.2 trivial

mutual

theorem answered_primitive (v : Value) : FailsOnly IsAnswered v.primitive := by
  cases v with
  | array items =>
    rw [primitive]
    exact answered_primitiveOf _ _ ((answered_spelledItems items).bind fun _ _ => failsOnly_ok _)
  | mapping es ancestry =>
    rw [primitive.eq_def]
    refine answered_primitiveOf _ _ ?_
    cases ancestry with
    | parentOfDates => exact failsOnly_error.2 trivial
    | _ => exact failsOnly_ok _
  | map | set | date | invalidDate | object | function =>
    rw [primitive]
    exact answered_primitiveOf _ _ (failsOnly_ok _)
  | _ => exact failsOnly_ok _

theorem answered_spelledItems (items : List (Option Value)) :
    FailsOnly IsAnswered (spelledItems items) := by
  match items with
  | [] => exact failsOnly_ok _
  | none :: items =>
    rw [spelledItems]
    exact (answered_spelledItems items).bind fun _ _ => failsOnly_ok _
  | some v :: items =>
    have hrest := answered_spelledItems items
    rw [spelledItems]
    split
    · exact hrest.bind fun _ _ => failsOnly_ok _
    · exact ((answered_primitive v).bind fun w _ => answered_plainText w).bind fun _ _ =>
        hrest.bind fun _ _ => failsOnly_ok _

end

theorem answered_spelled (v : Value) : FailsOnly IsAnswered (spelled v) := by
  cases v with
  | symbol => exact failsOnly_ok _
  | _ => exact (answered_primitive _).bind fun w _ => answered_plainText w

theorem answered_keyName? (k : Key Value) : FailsOnly IsAnswered (keyName? k) := by
  refine (answered_primitive _).bind fun v _ => ?_
  cases v with
  | symbol => exact failsOnly_ok _
  | _ => exact (answered_plainText _).map

theorem answered_entriesOfMap (es : List (Key Value × Value)) :
    FailsOnly IsAnswered (entriesOfMap es) :=
  (FailsOnly.mapM fun e _ => (answered_keyName? e.1).bind fun _ _ => failsOnly_ok _).bind
    fun _ _ => failsOnly_ok _

theorem answered_written (v : Value) : FailsOnly IsAnswered (written v) := by
  rw [written]
  split
  · exact failsOnly_ok _
  · exact answered_spelled v

theorem answered_ownText (v : Value) : FailsOnly IsAnswered v.ownText := by
  cases v with
  | array | mapping | set | object => exact answered_written _
  | undefined | null | date => exact failsOnly_ok _
  | invalidDate => exact failsOnly_error.2 trivial
  | bool | number | bigint | text | symbol | map | function =>
    rw [ownText]
    · exact answered_spelled _
    all_goals simp

/-- The only reports that come of a text are those with which functions of the host answer. -/
theorem answered_toText? (v : Value) : FailsOnly IsAnswered v.toText? := by
  cases v with
  | map es => exact (answered_entriesOfMap es).bind fun _ _ => answered_json _ _
  | _ => exact (answered_ownText _).map

theorem unplaced_toText? (v : Value) : FailsOnly IsUnplaced v.toText? :=
  unplaced_of_answered (answered_toText? v)

theorem unplaced_toText (v : Value) : FailsOnly IsUnplaced v.toText :=
  v.unplaced_toText?.bind fun t _ => by
    cases t with
    | some t => exact failsOnly_ok t
    | none => exact failsOnly_error.2 trivial

theorem unplaced_insertedText (v : Value) : FailsOnly IsUnplaced v.insertedText :=
  v.unplaced_toText?.bind fun _ _ => failsOnly_ok _

/-! ## Access and paths -/

theorem unplaced_ask (f : Nat) (v : Value) (name : Text) : FailsOnly IsUnplaced (ask f v name) :=
  unplaced_of_answered (PureHost.answered_answer _ _ _)

theorem unplaced_readProperty (v : Value) (name : Text) :
    FailsOnly IsUnplaced (v.readProperty name) := by
  rw [readProperty]
  split
  · exact failsOnly_error.2 trivial
  · exact failsOnly_ok _

theorem unplaced_ownField (v : Value) (name : Text) :
    FailsOnly IsUnplaced (v.ownField name) := by
  cases v with
  | mapping es ancestry =>
    rw [ownField]
    split
    · exact failsOnly_error.2 trivial
    · exact failsOnly_ok _
  | array | set | date | invalidDate | object | function => exact unplaced_readProperty _ name
  | _ => exact failsOnly_ok _

theorem unplaced_getField (v : Value) (name : Text) : FailsOnly IsUnplaced (v.getField name) := by
  rw [getField]
  split
  · exact (unplaced_ask _ _ _).map
  · exact unplaced_ownField v name

theorem unplaced_getKey (v : Value) (k : Text) : FailsOnly IsUnplaced (v.getKey k) := by
  rw [getKey.eq_def]
  split
  case h_6 | h_7 | h_8 | h_9 | h_10 => exact failsOnly_error.2 (.inl ⟨rfl, rfl⟩)
  case h_11 =>
    split
    · exact (unplaced_ask _ _ _).map
    · exact unplaced_readProperty v k
  all_goals exact failsOnly_ok _

theorem unplaced_listFields (v : Value) : FailsOnly IsUnplaced v.listFields := by
  cases v with
  | map => exact failsOnly_ok _
  | _ =>
    exact FailsOnly.mapM fun name _ => (unplaced_getField _ name).bind fun _ _ => failsOnly_ok _

end Value

namespace Path

theorem unplaced_takeStep (v : Value) (s : Step) : FailsOnly IsUnplaced (takeStep v s) := by
  match s with
  | .attribute name => exact v.unplaced_getField name
  | .index n => exact failsOnly_ok _
  | .key k => exact v.unplaced_getKey k

theorem unplaced_followFrom (text : Text) (taken : Nat) (v : Value) (ss : List Step) :
    FailsOnly IsUnplaced (followFrom text taken v ss) := by
  induction ss generalizing taken v with
  | nil => exact failsOnly_ok _
  | cons s ss ih =>
    rw [followFrom]
    split
    · exact failsOnly_ok _
    · exact (unplaced_inContext (unplaced_takeStep v s) rfl rfl).bind fun _ _ => ih _ _

theorem unplaced_read (t : Text) : FailsOnly IsUnplaced (read t) := by
  rw [read]
  cases steps t with
  | error problem => exact failsOnly_error.2 (.inl ⟨rfl, rfl⟩)
  | ok ss => exact failsOnly_ok _

theorem unplaced_extract (v : Value) (t : Text) : FailsOnly IsUnplaced (extract v t) :=
  (unplaced_read t).bind fun _ _ => unplaced_followFrom _ _ _ _

end Path

/-! ## Transforms -/

namespace TextTransform

mutual

theorem unplaced_apply (f : TextTransform) (v : Value) : FailsOnly IsUnplaced (f.apply v) := by
  cases v with
  | text t => exact failsOnly_ok _
  | array vs =>
    rw [apply]
    exact (unplaced_applyItems f vs).bind fun _ _ => failsOnly_ok _
  | _ => exact failsOnly_error.2 (.inl ⟨rfl, rfl⟩)

theorem unplaced_applyItems (f : TextTransform) (items : List (Option Value)) :
    FailsOnly IsUnplaced (f.applyItems items) := by
  match items with
  | [] => exact failsOnly_ok _
  | none :: items =>
    rw [applyItems]
    exact (unplaced_applyItems f items).bind fun _ _ => failsOnly_ok _
  | some v :: items =>
    have hrest := unplaced_applyItems f items
    rw [applyItems]
    split
    · exact hrest.bind fun _ _ => failsOnly_ok _
    · exact (unplaced_apply f v).bind fun _ _ => hrest.bind fun _ _ => failsOnly_ok _

end

end TextTransform

namespace Format

theorem unplaced_withPlaces (count : Nat) (text : Nat → Text) :
    FailsOnly IsUnplaced (withPlaces count text) := by
  rw [withPlaces]
  split
  · exact failsOnly_error.2 trivial
  · exact failsOnly_ok _

theorem unplaced_magnitudeText (s : Specifier) (x : Magnitude) :
    FailsOnly IsUnplaced (magnitudeText s x) := by
  rw [magnitudeText.eq_def]
  split
  -- Whole numbers have a text in any case, and a code without one asks for a precision.
  case h_1 | h_9 | h_10 | h_11 | h_12 => exact failsOnly_ok _
  case h_13 | h_14 =>
    split
    · exact unplaced_withPlaces _ _
    · exact failsOnly_ok _
  case h_7 => exact (unplaced_withPlaces _ _).map
  all_goals exact unplaced_withPlaces _ _

theorem unplaced_numberBody (s : Specifier) (n : Number) :
    FailsOnly IsUnplaced (numberBody s n) := by
  have hunsigned : FailsOnly IsUnplaced (unsignedText s n) := by
    cases n with
    | finite _ x => exact unplaced_magnitudeText s x
    | _ => exact failsOnly_ok _
  refine hunsigned.bind fun body _ => ?_
  split <;> exact failsOnly_ok _

theorem unplaced_pad (s : Specifier) (mark body : Text) (usual : Alignment) :
    FailsOnly IsUnplaced (pad s mark body usual) := by
  rw [pad]
  simp only
  split
  · exact failsOnly_error.2 trivial
  · exact failsOnly_ok _

theorem unplaced_bodyText (s : Specifier) (v : Value) : FailsOnly IsUnplaced (bodyText s v) := by
  rw [bodyText]
  split
  · exact v.unplaced_toText.map
  · exact v.unplaced_insertedText

theorem unplaced_formatBy (s : Specifier) (v : Value) : FailsOnly IsUnplaced (formatBy s v) := by
  cases v with
  | number n =>
    rw [formatBy, formatNumber.eq_def]
    split
    · exact failsOnly_error.2 (.inl ⟨rfl, rfl⟩)
    · split
      · exact failsOnly_error.2 (.inl ⟨rfl, rfl⟩)
      · exact (unplaced_numberBody s n).bind fun _ _ => unplaced_pad _ _ _ _
  | _ =>
    rw [formatBy, formatText.eq_def]
    · split
      · exact failsOnly_error.2 (.inl ⟨rfl, rfl⟩)
      · split
        · exact failsOnly_error.2 (.inl ⟨rfl, rfl⟩)
        · exact (unplaced_bodyText _ _).bind fun _ _ => unplaced_pad _ _ _ _
    · exact nofun

theorem unplaced_formatWith (v : Value) (t : Text) : FailsOnly IsUnplaced (formatWith v t) := by
  rw [formatWith]
  split
  · exact v.unplaced_toText?
  · split
    · exact (unplaced_formatBy _ v).map
    · exact failsOnly_error.2 (.inl ⟨rfl, rfl⟩)

end Format

namespace Collection

theorem unplaced_wrongInput {α : Type} (name expected : String) (v : Value) :
    FailsOnly IsUnplaced (wrongInput name expected v : Except Failure α) :=
  failsOnly_error.2 (.inl ⟨rfl, rfl⟩)

theorem unplaced_sequence (name expected : String) (v : Value) :
    FailsOnly IsUnplaced (sequence name expected v) := by
  rw [sequence.eq_def]
  split
  · exact failsOnly_ok _
  · split
    · exact failsOnly_error.2 trivial
    · exact unplaced_wrongInput _ _ _

theorem unplaced_length (v : Value) : FailsOnly IsUnplaced (length v) := by
  cases v with
  | text | array | map | set | mapping => exact failsOnly_ok _
  | _ => exact unplaced_wrongInput _ _ _

theorem unplaced_join (v : Value) (separator : Text) : FailsOnly IsUnplaced (join v separator) := by
  refine (unplaced_sequence _ _ v).bind fun vs _ => ?_
  exact (FailsOnly.mapM fun w _ => w.unplaced_toText?).bind fun _ _ => failsOnly_ok _

theorem unplaced_first (v : Value) : FailsOnly IsUnplaced (first v) := by
  rw [first.eq_def]
  split
  · exact failsOnly_ok _
  · exact failsOnly_ok _
  · exact (unplaced_sequence _ _ v).bind fun _ _ => failsOnly_ok _

theorem unplaced_last (v : Value) : FailsOnly IsUnplaced (last v) := by
  rw [last.eq_def]
  split
  · exact failsOnly_ok _
  · exact failsOnly_ok _
  · exact (unplaced_sequence _ _ v).bind fun _ _ => failsOnly_ok _

theorem unplaced_flatten (v : Value) (depth : Number) : FailsOnly IsUnplaced (flatten v depth) :=
  (unplaced_sequence _ _ v).bind fun _ _ => failsOnly_ok _

end Collection

namespace Conversion

theorem unplaced_failed {α : Type} (name expected : String) (v : Value) :
    FailsOnly IsUnplaced (failed name expected v : Except Failure α) :=
  v.unplaced_insertedText.bind fun _ _ => failsOnly_error.2 (.inl ⟨rfl, rfl⟩)

theorem unplaced_toInteger (v : Value) : FailsOnly IsUnplaced (toInteger v) := by
  rw [toInteger.eq_def]
  split
  · exact failsOnly_ok _
  · split
    · exact failsOnly_ok _
    · exact unplaced_failed _ _ _
  · split
    · exact failsOnly_ok _
    · exact unplaced_failed _ _ _
  · exact unplaced_failed _ _ _

theorem unplaced_toFloat (v : Value) : FailsOnly IsUnplaced (toFloat v) := by
  rw [toFloat.eq_def]
  split
  · exact failsOnly_ok _
  · exact failsOnly_ok _
  · split
    · exact failsOnly_ok _
    · split
      · exact failsOnly_ok _
      · exact unplaced_failed _ _ _
  · exact unplaced_failed _ _ _

end Conversion

theorem BuiltinTransform.unplaced_number (b : BuiltinTransform) (v : Value) :
    FailsOnly IsUnplaced (b.number v) := by
  cases v with
  | number n => exact failsOnly_ok _
  | _ => exact failsOnly_error.2 (.inl ⟨rfl, rfl⟩)

theorem BuiltinTransform.unplaced_run (b : BuiltinTransform) (v : Value) :
    FailsOnly IsUnplaced (b.run v) := by
  cases b with
  | upper | lower | capitalize | strip => exact TextTransform.unplaced_apply _ v
  | truncate n s => exact (v.unplaced_toText.bind fun _ _ => failsOnly_ok _).map
  | abs | round => exact (unplaced_number _ v).bind fun _ _ => failsOnly_ok _
  | format t =>
    rw [run.eq_def]
    dsimp only
    split
    · exact failsOnly_error.2 (.inl ⟨rfl, rfl⟩)
    · exact (Format.unplaced_formatWith v _).map
  | length => exact (Collection.unplaced_length v).bind fun _ _ => failsOnly_ok _
  | join separator => exact (Collection.unplaced_join v _).map
  | first => exact Collection.unplaced_first v
  | last => exact Collection.unplaced_last v
  | flatten depth => exact (Collection.unplaced_flatten v _).map
  | str => exact v.unplaced_toText?.map
  | int => exact (Conversion.unplaced_toInteger v).map
  | float => exact Conversion.unplaced_toFloat v

theorem Transform.unplaced_apply (t : Transform) (v : Value) :
    FailsOnly IsUnplaced (t.apply v) := by
  rw [apply.eq_def]
  split
  · exact failsOnly_ok _
  · cases t with
    | custom f => exact unplaced_of_answered (PureHost.answered_answer _ _ _)
    | builtin b => exact unplaced_inContext (b.unplaced_run v) rfl rfl

/-! ## Filters -/

namespace Operator

variable {o : Operator} {value operand : Value}

theorem unplaced_compareBy : FailsOnly IsUnplaced (o.compareBy value operand) := by
  rw [compareBy.eq_def]
  split
  case h_4 => exact failsOnly_error.2 (.inl ⟨rfl, rfl⟩)
  all_goals exact failsOnly_ok _

theorem unplaced_membership : FailsOnly IsUnplaced (o.membership value operand) := by
  rw [membership.eq_def]
  split
  · exact failsOnly_ok _
  · split
    · exact failsOnly_ok _
    · exact failsOnly_error.2 (.inl ⟨rfl, rfl⟩)
  · exact failsOnly_error.2 (.inl ⟨rfl, rfl⟩)

theorem unplaced_textOperand : FailsOnly IsUnplaced (o.textOperand operand) := by
  cases operand with
  | text t => exact failsOnly_ok _
  | _ => exact failsOnly_error.2 (.inl ⟨rfl, rfl⟩)

theorem unplaced_evaluate (o : Operator) (value operand : Value) :
    FailsOnly IsUnplaced (o.evaluate value operand) := by
  cases o with
  | isIn => exact unplaced_membership
  | isNotIn => exact unplaced_membership.map
  | startsWith | endsWith | contains =>
    exact value.unplaced_toText.bind fun _ _ => unplaced_textOperand.bind fun _ _ => failsOnly_ok _
  | «matches» =>
    refine unplaced_textOperand.bind fun p _ => ?_
    split
    · exact value.unplaced_insertedText.bind fun _ _ => failsOnly_ok _
    · exact failsOnly_error.2 trivial
  | gt | gte | lt | lte => exact unplaced_compareBy
  | eq | ne | isNone | isNotNone => exact failsOnly_ok _
  | hasKind => cases operand <;> exact failsOnly_ok _

end Operator

namespace Predicate

theorem unplaced_runTests (path : Text) (value : Value) (ts : List Test) :
    FailsOnly IsUnplaced (runTests path value ts) := by
  induction ts with
  | nil => exact failsOnly_ok _
  | cons t ts ih =>
    rw [runTests]
    have htest := t.operator.unplaced_evaluate value t.operand
    refine (unplaced_inContext htest rfl rfl).bind fun holds _ => ?_
    split
    · exact ih
    · exact failsOnly_ok _

theorem unplaced_runField (item : Value) (path : Text) (condition : Condition)
    (self : Option Operator) : FailsOnly IsUnplaced (runField item path condition self) := by
  have hfield := Path.unplaced_extract item path
  rw [runField.eq_def]
  split
  · split
    · exact Operator.unplaced_evaluate _ item _
    · exact hfield.bind fun _ _ => failsOnly_ok _
  · exact hfield.bind fun _ _ => failsOnly_ok _
  · exact hfield.bind fun _ _ => unplaced_runTests _ _ _

variable {item : Value}

mutual

theorem unplaced_evaluate (item : Value) (p : Predicate) :
    FailsOnly IsUnplaced (evaluate item p) := by
  cases p with
  | field path condition self =>
    rw [evaluate]
    exact unplaced_runField item path condition self
  | all ps =>
    rw [evaluate]
    exact unplaced_evaluateAll item ps
  | any ps =>
    rw [evaluate]
    exact unplaced_evaluateAny item ps
  | negation p =>
    rw [evaluate]
    exact (unplaced_evaluate item p).map

theorem unplaced_evaluateAll (item : Value) (ps : List (Option Predicate)) :
    FailsOnly IsUnplaced (evaluateAll item ps) := by
  match ps with
  | [] => exact failsOnly_ok _
  | none :: ps =>
    rw [evaluateAll]
    exact unplaced_evaluateAll item ps
  | some p :: ps =>
    rw [evaluateAll]
    refine (unplaced_evaluate item p).bind fun holds _ => ?_
    split
    · exact unplaced_evaluateAll item ps
    · exact failsOnly_ok _

theorem unplaced_evaluateAny (item : Value) (ps : List (Option Predicate)) :
    FailsOnly IsUnplaced (evaluateAny item ps) := by
  match ps with
  | [] => exact failsOnly_ok _
  | none :: ps =>
    rw [evaluateAny]
    exact unplaced_evaluateAny item ps
  | some p :: ps =>
    rw [evaluateAny]
    refine (unplaced_evaluate item p).bind fun holds _ => ?_
    split
    · exact failsOnly_ok _
    · exact unplaced_evaluateAny item ps

end

theorem unplaced_filterItems (p : Predicate) (vs : List Value) :
    FailsOnly IsUnplaced (p.filterItems vs) := by
  induction vs with
  | nil => exact failsOnly_ok _
  | cons v vs ih =>
    exact (unplaced_evaluate v p).bind fun _ _ => ih.bind fun _ _ => failsOnly_ok _

theorem unplaced_filterValue (p : Predicate) (v : Value) :
    FailsOnly IsUnplaced (p.filterValue v) := by
  cases v with
  | array vs => exact (unplaced_filterItems p _).map
  | _ => exact failsOnly_error.2 trivial

end Predicate

/-! ## Templates -/

namespace Template

theorem unplaced_resolve (expression : Text) (binding : Value) :
    FailsOnly IsUnplaced (resolve expression binding) := by
  rw [resolve]
  split
  · exact failsOnly_ok _
  · exact Path.unplaced_extract _ _

theorem unplaced_assemble (binding : Value) (tail : Text) (pieces : List (Text × Text)) :
    FailsOnly IsUnplaced (assemble binding tail pieces) := by
  induction pieces with
  | nil => exact failsOnly_ok _
  | cons piece pieces ih =>
    exact (unplaced_resolve _ _).bind fun v _ => v.unplaced_insertedText.bind fun _ _ =>
      ih.bind fun _ _ => failsOnly_ok _

theorem unplaced_substituteText (t : Text) (binding : Value) :
    FailsOnly IsUnplaced (substituteText t binding) := by
  rw [substituteText]
  split
  · exact unplaced_resolve _ _
  · exact (unplaced_assemble _ _ _).map

mutual

theorem unplaced_substitute (binding v : Value) : FailsOnly IsUnplaced (substitute binding v) := by
  cases v with
  | text t =>
    rw [substitute]
    exact unplaced_substituteText t binding
  | array vs =>
    rw [substitute]
    exact (unplaced_substituteItems binding vs).map
  | mapping es =>
    rw [substitute]
    exact (unplaced_substituteEntries binding es).map
  | _ => exact failsOnly_ok _

theorem unplaced_substituteItems (binding : Value) (items : List (Option Value)) :
    FailsOnly IsUnplaced (substituteItems binding items) := by
  match items with
  | [] => exact failsOnly_ok _
  | none :: items =>
    rw [substituteItems]
    exact (unplaced_substituteItems binding items).bind fun _ _ => failsOnly_ok _
  | some v :: items =>
    rw [substituteItems]
    exact (unplaced_substitute binding v).bind fun _ _ =>
      (unplaced_substituteItems binding items).bind fun _ _ => failsOnly_ok _

theorem unplaced_substituteEntries (binding : Value) (es : List (Text × Value)) :
    FailsOnly IsUnplaced (substituteEntries binding es) := by
  cases es with
  | nil => exact failsOnly_ok _
  | cons e es =>
    rw [substituteEntries]
    exact (unplaced_substitute binding e.2).bind fun _ _ =>
      (unplaced_substituteEntries binding es).bind fun _ _ => failsOnly_ok _

end

end Template

namespace MapSpec

theorem unplaced_mapItems (m : MapSpec) (items : List (Option Value)) :
    FailsOnly IsUnplaced (m.mapItems items) := by
  match items with
  | [] => exact failsOnly_ok _
  | none :: items =>
    rw [mapItems]
    exact (unplaced_mapItems m items).bind fun _ _ => failsOnly_ok _
  | some v :: items =>
    rw [mapItems]
    exact (Template.unplaced_substitute _ _).bind fun _ _ =>
      (unplaced_mapItems m items).bind fun _ _ => failsOnly_ok _

theorem unplaced_apply (m : MapSpec) (v : Value) : FailsOnly IsUnplaced (m.apply v) := by
  rw [apply.eq_def]
  split
  · split
    · exact failsOnly_error.2 (.inl ⟨rfl, rfl⟩)
    · exact (unplaced_mapItems m _).map
  · exact failsOnly_error.2 (.inl ⟨rfl, rfl⟩)

end MapSpec

/-! ## Specifications -/

namespace Spec

theorem unplaced_runPath (source : Value) (path : Option Text) :
    FailsOnly IsUnplaced (runPath source path) := by
  cases path with
  | none => exact failsOnly_ok _
  | some t => exact Path.unplaced_extract source t

theorem unplaced_runFallback (source : Value) (fallback : Option Text) (v : Value) :
    FailsOnly IsUnplaced (runFallback source fallback v) := by
  rw [runFallback.eq_def]
  split
  · split
    · exact Path.unplaced_extract source _
    · exact failsOnly_ok _
  · exact failsOnly_ok _

theorem unplaced_runTransform (transform : Option Transform) (v : Value) :
    FailsOnly IsUnplaced (runTransform transform v) := by
  rw [runTransform.eq_def]
  split
  · split
    · exact failsOnly_ok _
    · exact Transform.unplaced_apply _ v
  · exact failsOnly_ok _

theorem unplaced_runItems {α : Type} {stage : Stage}
    {operation : α → Value → Except Failure Value} {setting : Option α}
    (h : ∀ a v, FailsOnly IsUnplaced (operation a v)) (v : Value) :
    FailsOnly IsUnplaced (runItems stage operation setting v).outcome := by
  rw [runItems.eq_def]
  split
  · split
    · exact h _ _
    · split <;> exact failsOnly_ok _
  · exact failsOnly_ok _

/-- Whoever runs an extraction may place its failures. -/
theorem unplaced_run (s : Spec) (source : Value) :
    FailsOnly IsUnplaced (s.run source).outcome := by
  cases s with
  | literal v => exact failsOnly_ok _
  | path t =>
    rw [run]
    split
    · exact Path.unplaced_followFrom _ _ _ _
    · exact failsOnly_ok _
  | callable f => exact (unplaced_of_answered (PureHost.answered_answer _ _ _)).map
  | structured s =>
    simp only [run, runStages, Run.outcome_bind, Run.outcome_lift, Run.outcome_pure]
    refine (unplaced_runPath _ _).bind fun _ _ => (unplaced_runFallback _ _ _).bind fun _ _ => ?_
    refine (unplaced_runTransform _ _).bind fun v _ => ?_
    refine (unplaced_runItems Predicate.unplaced_filterValue v).bind fun w _ => ?_
    exact (unplaced_runItems MapSpec.unplaced_apply w).bind fun _ _ => failsOnly_ok _

end Spec

end TreeExtraction
