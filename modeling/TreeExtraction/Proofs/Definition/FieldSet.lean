import TreeExtraction.Definition.Serialized
import TreeExtraction.Proofs.Extraction.RoundTrip
import TreeExtraction.Proofs.Schema.Reading

/-! # Written field specifications are read back

The specifications of some fields are written as a mapping of the fields that are given. If each of
them is read from its serialized form, so are all of them together, whatever stands beside them in
the mapping.
-/

namespace TreeExtraction

/-- Whether something is written as a value that is read as itself. -/
def RoundTrips {α : Type} (serialize : α → Except Failure Value)
    (compile : Value → Except Failure α) (a : α) : Prop :=
  ∃ v, serialize a = .ok v ∧ v ≠ .undefined ∧ compile v = .ok a

/-- Whether a specification can be written: it holds no function of the host and keeps a stage if it
is structured. -/
def Spec.IsPortable (s : Spec) : Prop :=
  s.isSerializable = true ∧ s ≠ .structured {}

theorem Spec.isPortable_path (t : Text) : (Spec.path t).IsPortable :=
  ⟨rfl, fun h => nomatch h⟩

theorem Spec.isPortable_literal (v : Value) : (Spec.literal v).IsPortable :=
  ⟨rfl, fun h => nomatch h⟩

theorem Spec.roundTrips [PureHost] [Validator] {s : Spec} (h : s.IsReadable) (hs : s.IsPortable) :
    RoundTrips serialize compile s := by
  rcases exists_serialize h hs.1 with ⟨v, hserialize, hv, hback, -⟩
  exact ⟨v, hserialize, hv, hback hs.2⟩

/-! ## Children -/

namespace Selector

/-- A property of the specification of a list, if there is one. -/
def Holds (P : Spec → Prop) : Selector → Prop
  | .listed s => P s
  | .types _ _ => True

theorem asksForTypes_eq_false {es : Entries} {ancestry : Ancestry}
    (hinclude : includeKey ∉ Table.keys es) (hexclude : excludeKey ∉ Table.keys es) :
    asksForTypes (.mapping es ancestry) = false := by
  simp [asksForTypes, Value.isObjectLike, Value.members, keys, Table.has_eq_false hinclude,
    Table.has_eq_false hexclude]

section

variable [Validator] [LawfulValidator]

open Validator LawfulValidator

theorem schema_ok {v : Value} {included excluded : List Text} :
    safeParse schema v = .ok (included, excluded) ↔
      ∃ es, v.objectEntries? keys = some es ∧ (∀ e ∈ es, e.1 ∈ keys) ∧
        safeParse (withDefault usualInclude (array text)) (Entries.get es includeKey) =
          .ok included ∧
        safeParse (withDefault [] (array text)) (Entries.get es excludeKey) = .ok excluded := by
  rw [schema, object_ok]
  apply exists_congr
  intro es
  apply and_congr_right
  intro _
  apply and_congr_right
  intro _
  simp only [Shape.Reads]
  constructor
  · rintro ⟨a, _, ha, ⟨b, _, hb, rfl, rfl⟩, hpair⟩
    obtain ⟨rfl, rfl⟩ := Prod.mk.inj hpair
    exact ⟨ha, hb⟩
  · rintro ⟨ha, hb⟩
    exact ⟨included, _, ha, ⟨excluded, _, hb, rfl, rfl⟩, rfl⟩

theorem safeParse_patterns (usual patterns : List Text) :
    safeParse (withDefault usual (array text)) (.list (patterns.map .text)) = .ok patterns :=
  withDefault_ok.2 (.inr ⟨nofun, array_text patterns⟩)

theorem safeParse_usual (usual : List Text) :
    safeParse (withDefault usual (array text)) .undefined = .ok usual :=
  withDefault_ok.2 (.inl ⟨rfl, rfl⟩)

theorem safeParse_written (included excluded : List Text) :
    safeParse schema (.mapping [(includeKey, .list (included.map .text)),
      (excludeKey, .list (excluded.map .text))]) = .ok (included, excluded) := by
  have hentries : (Value.mapping [(includeKey, .list (included.map .text)),
      (excludeKey, .list (excluded.map .text))]).objectEntries? keys = some _ :=
    Value.objectEntries?_mapping _ _ (by simp [Value.list])
  exact schema_ok.2
    ⟨_, hentries, by simp [keys], safeParse_patterns _ _, safeParse_patterns _ _⟩

end

section

variable [PureHost] [Validator]

/-- What reading makes sure of: the specification of a list is not taken for a selection by type. -/
def IsReadable : Selector → Prop
  | .listed s => s.IsReadable ∧ ∀ v, s = .literal v → asksForTypes v = false
  | .types _ _ => True

/-- What a specification is written as is not taken for a selection by type, unless it is a literal
that is. -/
theorem asksForTypes_of_serialize {s : Spec} {v : Value} (h : s.serialize = .ok v)
    (hs : s.IsReadable) (hserializable : s.isSerializable = true)
    (hliteral : ∀ v, s = .literal v → asksForTypes v = false) : asksForTypes v = false := by
  cases s with
  | literal w =>
    rw [Spec.serialize_literal hs] at h
    cases h
    exact hliteral _ rfl
  | path t =>
    cases h
    rfl
  | callable f => cases h
  | structured s =>
    obtain ⟨b, -, hserialize⟩ := Stages.exists_serializeStages hserializable
    rw [Spec.serialize, hserialize] at h
    cases h
    have hkeys := Entries.keys_ofParts_subset (s.parts (b.map Transform.serializeBuiltin))
    rw [Stages.keys_parts] at hkeys
    exact asksForTypes_eq_false (fun hk => absurd (hkeys hk) (by decide))
      (fun hk => absurd (hkeys hk) (by decide))

variable [LawfulValidator]

theorem isReadable_of_compile {raw : Value} {c : Selector} (hraw : raw.isWellFormed = true)
    (h : compile raw = .ok c) : c.IsReadable := by
  rw [compile] at h
  split at h
  · split at h
    · cases h
      trivial
    · cases h
  · next hasks =>
    obtain ⟨s, hs, rfl⟩ := Outcome.map_eq_ok.1 h
    refine ⟨Spec.isReadable_of_compile hraw hs, ?_⟩
    rintro v rfl
    rw [Bool.not_eq_true] at hasks
    rw [Spec.compile.eq_def] at hs
    split at hs
    · cases hs
    · cases hs
    · cases hs
      rfl
    · split at hs
      · obtain ⟨stages, -, hstages⟩ := Outcome.map_eq_ok.1 hs
        cases hstages
      · cases hs
        exact hasks
    · cases hs
      exact hasks

/-- A readable selection whose specification can be written is read back. -/
theorem roundTrips {c : Selector} (h : c.IsReadable) (hc : c.Holds Spec.IsPortable) :
    RoundTrips serialize compile c := by
  cases c with
  | types included excluded =>
    refine ⟨_, rfl, nofun, ?_⟩
    have hasks : asksForTypes (.mapping [(includeKey, .list (included.map .text)),
        (excludeKey, .list (excluded.map .text))]) = true := rfl
    rw [compile, if_pos hasks, safeParse_written]
  | listed s =>
    obtain ⟨hs, hliteral⟩ := h
    obtain ⟨v, hserialize, hv, hback⟩ := Spec.roundTrips hs hc
    have hasks := asksForTypes_of_serialize hserialize hs hc.1 hliteral
    refine ⟨v, hserialize, hv, ?_⟩
    rw [compile, hasks, if_neg Bool.false_ne_true, hback]
    rfl

end

end Selector

/-! ## Fields -/

theorem FieldName.mem_all (f : FieldName) : f ∈ all := by
  cases f <;> decide

/-- Properties of all specifications that are given. -/
structure Overrides.Each (P : Spec → Prop) (Q : Selector → Prop) (o : Overrides) : Prop where
  label : ∀ s ∈ o.label, P s
  type : ∀ s ∈ o.type, P s
  children : ∀ c ∈ o.children, Q c
  icon : ∀ s ∈ o.icon, P s
  contentLines : ∀ s ∈ o.contentLines, P s
  sourceLocation : ∀ s ∈ o.sourceLocation, P s
  extra : ∀ s ∈ o.extra, P s

namespace Overrides

variable {P P' P'' : Spec → Prop} {Q Q' Q'' : Selector → Prop} {o : Overrides} {base : Fields}

theorem Each.and_imp (hP : ∀ s, P s → P' s → P'' s) (hQ : ∀ c, Q c → Q' c → Q'' c)
    (h : o.Each P Q) (h' : o.Each P' Q') : o.Each P'' Q'' where
  label s hs := hP s (h.label s hs) (h'.label s hs)
  type s hs := hP s (h.type s hs) (h'.type s hs)
  children c hc := hQ c (h.children c hc) (h'.children c hc)
  icon s hs := hP s (h.icon s hs) (h'.icon s hs)
  contentLines s hs := hP s (h.contentLines s hs) (h'.contentLines s hs)
  sourceLocation s hs := hP s (h.sourceLocation s hs) (h'.sourceLocation s hs)
  extra s hs := hP s (h.extra s hs) (h'.extra s hs)

theorem forall_getD {α : Type} {R : α → Prop} {a : Option α} {b : α} (ha : ∀ x ∈ a, R x)
    (hb : ∀ x ∈ some b, R x) : ∀ x ∈ some (a.getD b), R x := by
  cases a with
  | none => exact hb
  | some a => exact ha

/-- Each field of an overlay is one of the upper or of the lower fields. -/
theorem Each.overlay (ho : o.Each P Q) (hbase : base.all.Each P Q) :
    (base.overlay o).all.Each P Q where
  label := forall_getD ho.label hbase.label
  type := forall_getD ho.type hbase.type
  children := forall_getD ho.children hbase.children
  icon := forall_getD ho.icon hbase.icon
  contentLines := forall_getD ho.contentLines hbase.contentLines
  sourceLocation := forall_getD ho.sourceLocation hbase.sourceLocation
  extra := forall_getD ho.extra hbase.extra

end Overrides

theorem Fields.overlay_all (base f : Fields) : base.overlay f.all = f := rfl

namespace Definition

variable {raw : RawFields} {nodeType : Option Text}

theorem of_compileField {α : Type} {compile : Value → Except Failure α} {f : FieldName}
    {a : Option α} (h : compileField compile raw nodeType f = .ok a) :
    ∀ x ∈ a, compile (raw f) = .ok x := by
  rw [compileField.eq_def] at h
  split at h
  · cases h
    exact fun _ hx => nomatch hx
  · rcases Outcome.map_eq_ok.1 (Outcome.inContext_eq_ok.1 h) with ⟨y, hy, rfl⟩
    rintro _ ⟨⟩
    exact hy

theorem compileField_of_ne {α : Type} {compile : Value → Except Failure α} {f : FieldName} {x : α}
    (hne : raw f ≠ .undefined) (h : compile (raw f) = .ok x) :
    compileField compile raw nodeType f = .ok (some x) := by
  rw [compileField.eq_def]
  split
  · next hundefined => exact absurd hundefined hne
  · rw [h]
    rfl

/-- A field is written as an entry of its key or left out, and is read from what is under it. -/
theorem exists_serializeField {α : Type} {serialize : α → Except Failure Value}
    {compile : Value → Except Failure α} {a : Option α}
    (h : ∀ x ∈ a, RoundTrips serialize compile x) (nodeType : Option Text) (f : FieldName) :
    ∃ w : Option Value, serializeField serialize a nodeType f = .ok (Entries.ofOption f.key w) ∧
      ∀ raw : RawFields, raw f = w.getD .undefined →
        compileField compile raw nodeType f = .ok a := by
  cases a with
  | none =>
    refine ⟨none, rfl, fun raw hraw => ?_⟩
    rw [compileField, hraw]
    rfl
  | some x =>
    obtain ⟨v, hserialize, hv, hcompile⟩ := h x rfl
    refine ⟨some v, ?_, fun raw hraw => ?_⟩
    · rw [serializeField, hserialize]
      rfl
    · rw [Option.getD_some] at hraw
      exact compileField_of_ne (hraw ▸ hv) (hraw ▸ hcompile)

/-- The values of the fields by name. -/
def valueOf (label type children icon contentLines sourceLocation extra : Option Value) :
    FieldName → Option Value
  | .label => label
  | .type => type
  | .children => children
  | .icon => icon
  | .contentLines => contentLines
  | .sourceLocation => sourceLocation
  | .extra => extra

/-- The values of the fields under their keys. -/
def fieldParts (w : FieldName → Option Value) : Table (Option Value) :=
  FieldName.all.map fun f => (f.key, w f)

theorem keys_fieldParts (w : FieldName → Option Value) :
    Table.keys (fieldParts w) = FieldName.all.map FieldName.key := rfl

variable [PureHost] [Validator]

/-- Field specifications that have been read are readable. -/
theorem each_isReadable_of_compileFields [LawfulValidator] {o : Overrides}
    (hraw : ∀ f, (raw f).isWellFormed = true) (h : compileFields raw nodeType = .ok o) :
    o.Each Spec.IsReadable Selector.IsReadable := by
  rw [compileFields] at h
  obtain ⟨label, hlabel, h⟩ := Outcome.bind_eq_ok.1 h
  obtain ⟨type, htype, h⟩ := Outcome.bind_eq_ok.1 h
  obtain ⟨children, hchildren, h⟩ := Outcome.bind_eq_ok.1 h
  obtain ⟨icon, hicon, h⟩ := Outcome.bind_eq_ok.1 h
  obtain ⟨contentLines, hcontentLines, h⟩ := Outcome.bind_eq_ok.1 h
  obtain ⟨sourceLocation, hsourceLocation, h⟩ := Outcome.bind_eq_ok.1 h
  obtain ⟨extra, hextra, h⟩ := Outcome.bind_eq_ok.1 h
  cases h
  have hspec {f : FieldName} {a : Option Spec}
      (ha : compileField Spec.compile raw nodeType f = .ok a) : ∀ s ∈ a, s.IsReadable := fun s hs =>
    Spec.isReadable_of_compile (hraw _) (of_compileField ha s hs)
  exact {
    label := hspec hlabel
    type := hspec htype
    children := fun c hc => Selector.isReadable_of_compile (hraw _)
      (of_compileField hchildren c hc)
    icon := hspec hicon
    contentLines := hspec hcontentLines
    sourceLocation := hspec hsourceLocation
    extra := hspec hextra }

/-- Field specifications are written as the entries of their fields, and are read from what is under
these. -/
theorem exists_serializeFields {o : Overrides} (h : o.Each (RoundTrips Spec.serialize Spec.compile)
    (RoundTrips Selector.serialize Selector.compile)) (nodeType : Option Text) :
    ∃ w : FieldName → Option Value,
      serializeFields o nodeType = .ok (Entries.ofParts (fieldParts w)) ∧
      ∀ raw : RawFields, (∀ f, raw f = (w f).getD .undefined) →
        compileFields raw nodeType = .ok o := by
  obtain ⟨label, hlabel, hlabel'⟩ := exists_serializeField h.label nodeType .label
  obtain ⟨type, htype, htype'⟩ := exists_serializeField h.type nodeType .type
  obtain ⟨children, hchildren, hchildren'⟩ := exists_serializeField h.children nodeType .children
  obtain ⟨icon, hicon, hicon'⟩ := exists_serializeField h.icon nodeType .icon
  obtain ⟨contentLines, hcontentLines, hcontentLines'⟩ :=
    exists_serializeField h.contentLines nodeType .contentLines
  obtain ⟨sourceLocation, hsourceLocation, hsourceLocation'⟩ :=
    exists_serializeField h.sourceLocation nodeType .sourceLocation
  obtain ⟨extra, hextra, hextra'⟩ := exists_serializeField h.extra nodeType .extra
  refine ⟨valueOf label type children icon contentLines sourceLocation extra, ?_,
    fun raw hraw => ?_⟩
  · rw [serializeFields, hlabel, htype, hchildren, hicon, hcontentLines, hsourceLocation, hextra]
    simp [Entries.ofParts, fieldParts, FieldName.all, valueOf]
  · rw [compileFields, hlabel' raw (hraw .label), htype' raw (hraw .type),
      hchildren' raw (hraw .children), hicon' raw (hraw .icon),
      hcontentLines' raw (hraw .contentLines), hsourceLocation' raw (hraw .sourceLocation),
      hextra' raw (hraw .extra)]
    rfl

end Definition

end TreeExtraction
