import TreeExtraction.Proofs.Definition.FieldSet
import TreeExtraction.Proofs.Glob.Matching
import TreeExtraction.Proofs.Node.Reading
import TreeExtraction.Proofs.Schema.Standard
import TreeExtraction.Value.SampleHost

/-! # Selection of children by type

Children that are selected by type are found by one scan of the fields, whatever the patterns are.
If the base types of what is found can be extracted and the patterns can be read, each selection
keeps those with a type that its patterns admit. So patterns to include and the same patterns to
exclude share out what a selection without any patterns finds.
-/

namespace TreeExtraction

/-! ## Patterns -/

namespace Selector

variable {patterns included excluded : List Text}

/-- Whether a type matches one of some patterns. -/
def matchesSome (patterns : List Text) (nodeType : Text) : Bool :=
  patterns.any fun p => Glob.matchesText nodeType p == some true

theorem matchesAny_eq_ok (ordered : ∀ p ∈ patterns, ¬Glob.HasReversedRange p) (nodeType : Text) :
    matchesAny nodeType patterns = .ok (matchesSome patterns nodeType) := by
  induction patterns with
  | nil => rfl
  | cons p patterns ih =>
    obtain ⟨hp, hpatterns⟩ := List.forall_mem_cons.1 ordered
    rw [matchesAny, matchesSome, List.any_cons]
    cases hmatch : Glob.matchesText nodeType p with
    | none => exact absurd (Glob.matchesText_eq_none_iff.1 hmatch) hp
    | some answer =>
      cases answer with
      | true => rfl
      | false => exact ih hpatterns

theorem admits_eq_ok (hincluded : ∀ p ∈ included, ¬Glob.HasReversedRange p)
    (hexcluded : ∀ p ∈ excluded, ¬Glob.HasReversedRange p) (nodeType : Text) :
    admits included excluded nodeType =
      .ok (!nodeType.isEmpty && matchesSome included nodeType &&
        !matchesSome excluded nodeType) := by
  rw [admits, matchesAny_eq_ok hincluded, matchesAny_eq_ok hexcluded]
  cases nodeType.isEmpty <;> cases matchesSome included nodeType <;> rfl

theorem not_hasReversedRange_star : ¬Glob.HasReversedRange [unit '*'] := by
  rw [Glob.hasReversedRange_iff (.star .nil)]
  decide

/-- A star alone matches every type. -/
theorem matchesSome_usualInclude (nodeType : Text) : matchesSome usualInclude nodeType = true := by
  have hread : Glob.Reads [unit '*'] [.star] := .star .nil
  have hdescribes : Glob.Describes [.star] (nodeType ++ []) := .star .nil
  rw [List.append_nil] at hdescribes
  obtain ⟨answer, hanswer, hiff⟩ := Glob.exists_matchesText hread not_hasReversedRange_star
  rw [hiff.2 hdescribes] at hanswer
  simp [matchesSome, usualInclude, hanswer]

/-- Patterns under one of the keys of a selection. -/
def written (key : Text) (patterns : List Text) : Value :=
  .mapping [(key, .list (patterns.map .text))]

theorem objectEntries?_written (key : Text) (patterns : List Text) :
    (written key patterns).objectEntries? keys = some [(key, .list (patterns.map .text))] :=
  Value.objectEntries?_mapping keys .ordinary (by simp [Value.list])

section

variable [PureHost] [Validator] [LawfulValidator]

open Validator LawfulValidator

theorem compile_written_include (patterns : List Text) :
    compile (written includeKey patterns) = .ok (.types patterns []) := by
  have hasks : asksForTypes (written includeKey patterns) = true := rfl
  have hread : safeParse schema (written includeKey patterns) = .ok (patterns, []) :=
    schema_ok.2 ⟨_, objectEntries?_written _ _, by simp [keys], safeParse_patterns _ _,
      safeParse_usual _⟩
  rw [compile, if_pos hasks, hread]

theorem compile_written_exclude (patterns : List Text) :
    compile (written excludeKey patterns) = .ok (.types usualInclude patterns) := by
  have hasks : asksForTypes (written excludeKey patterns) = true := rfl
  have hread : safeParse schema (written excludeKey patterns) = .ok (usualInclude, patterns) :=
    schema_ok.2 ⟨_, objectEntries?_written _ _, by simp [keys], safeParse_usual _,
      safeParse_patterns _ _⟩
  rw [compile, if_pos hasks, hread]

end

end Selector

/-! ## The scan -/

namespace Definition

variable {d : Definition} {included excluded patterns : List Text} {v : Value} {vs : List Value}

/-- An object is found in a field itself or in the array of a field. -/
theorem mem_scanned_iff {found : List (Text × Value)} (hv : v.isObjectLike = true) :
    v ∈ scanned found ↔ (∃ name, (name, v) ∈ found) ∨
      ∃ name items frame, (name, .array items frame) ∈ found ∧ some v ∈ items := by
  rw [scanned, List.mem_flatMap]
  constructor
  · rintro ⟨⟨name, w⟩, hw, hmem⟩
    cases w with
    | array items frame => exact .inr ⟨name, items, frame, hw, Value.mem_present.1 hmem⟩
    | _ =>
      obtain rfl := List.mem_singleton.1 hmem
      exact .inl ⟨name, hw⟩
  · rintro (⟨name, hfield⟩ | ⟨name, items, frame, hfield, hmem⟩)
    · refine ⟨(name, v), hfield, ?_⟩
      cases v with
      | array items => cases hv
      | _ => exact List.mem_singleton_self _
    · exact ⟨(name, .array items frame), hfield, Value.mem_present.2 hmem⟩

theorem ordered_usualInclude : ∀ p ∈ Selector.usualInclude, ¬Glob.HasReversedRange p :=
  List.forall_mem_singleton.2 Selector.not_hasReversedRange_star

theorem ordered_nil : ∀ p ∈ ([] : List Text), ¬Glob.HasReversedRange p :=
  List.forall_mem_nil _

section Host

variable [PureHost]

/-- The base type of a value, if it can be extracted and there is one. -/
def baseType? (d : Definition) (v : Value) : Option Text :=
  match (d.baseType v).outcome with
  | .ok t => t
  | .error _ => none

/-- Whether a value can be a child by its type. -/
def isTyped (d : Definition) (v : Value) : Bool :=
  v.isObjectLike && (d.baseType? v).any (!·.isEmpty)

/-- Whether the base type of a value matches one of some patterns. -/
def hasTypeIn (d : Definition) (patterns : List Text) (v : Value) : Bool :=
  (d.baseType? v).any (Selector.matchesSome patterns)

/-- Whether the base type of everything in a list that can be a child is extracted. -/
def ExtractsTypes (d : Definition) (vs : List Value) : Prop :=
  ∀ v ∈ vs, v.isObjectLike = true → ∃ t, (d.baseType v).outcome = .ok t

theorem outcome_isCandidate (hincluded : ∀ p ∈ included, ¬Glob.HasReversedRange p)
    (hexcluded : ∀ p ∈ excluded, ¬Glob.HasReversedRange p)
    (htype : v.isObjectLike = true → ∃ t, (d.baseType v).outcome = .ok t) :
    (d.isCandidate included excluded v).outcome =
      .ok (d.isTyped v && (d.hasTypeIn included v && !d.hasTypeIn excluded v)) := by
  rw [isCandidate, isTyped]
  cases hobject : v.isObjectLike with
  | false => rfl
  | true =>
    obtain ⟨t, ht⟩ := htype hobject
    obtain ⟨found, hfound, rfl⟩ := exists_of_baseType ht
    have hbase : d.baseType? v = found.name? := by rw [baseType?, ht]
    obtain ⟨w, hw, hnamed⟩ := Run.bind_eq_ok.1 hfound
    have hrun : (d.fields.type.run v).outcome = .ok w := Outcome.inContext_eq_ok.1 hw
    rw [Run.outcome_lift] at hnamed
    rw [if_pos rfl, Run.outcome_bind, hrun, Outcome.ok_bind, Run.outcome_bind, Run.outcome_lift,
      hnamed, Outcome.ok_bind, hasTypeIn, hasTypeIn, hbase]
    cases found with
    | null | undefined => rfl
    | named t => simp [NodeType.name?, Selector.admits_eq_ok hincluded hexcluded, Bool.and_assoc]

theorem outcome_candidates (hincluded : ∀ p ∈ included, ¬Glob.HasReversedRange p)
    (hexcluded : ∀ p ∈ excluded, ¬Glob.HasReversedRange p) (htypes : d.ExtractsTypes vs) :
    (d.candidates included excluded vs).outcome =
      .ok (vs.filter fun v =>
        d.isTyped v && (d.hasTypeIn included v && !d.hasTypeIn excluded v)) := by
  induction vs with
  | nil => rfl
  | cons v vs ih =>
    obtain ⟨hv, hvs⟩ := List.forall_mem_cons.1 htypes
    rw [candidates, Run.outcome_bind, outcome_isCandidate hincluded hexcluded hv, Outcome.ok_bind,
      Run.outcome_bind, ih hvs, Outcome.ok_bind, List.filter_cons]
    rfl

theorem isTyped_iff : d.isTyped v = true ↔
    v.isObjectLike = true ∧ ∃ t, t ≠ [] ∧ (d.baseType v).outcome = .ok (some t) := by
  rw [isTyped, Bool.and_eq_true, baseType?]
  refine and_congr_right fun _ => ?_
  cases (d.baseType v).outcome with
  | error f => simp
  | ok t => cases t <;> simp

section Selections

variable {source : Value} {fields : Fields} {base : Option Text} {found : List (Text × Value)}

/-- What a selection finds in a source. -/
def chosen (d : Definition) (source : Value) (fields : Fields) (base : Option Text)
    (selector : Selector) : Except Failure (List Value) :=
  (d.childSources source { fields with children := selector } base).outcome

theorem chosen_types (hfound : source.listFields = .ok found)
    (htypes : d.ExtractsTypes (scanned found))
    (hincluded : ∀ p ∈ included, ¬Glob.HasReversedRange p)
    (hexcluded : ∀ p ∈ excluded, ¬Glob.HasReversedRange p) :
    d.chosen source fields base (.types included excluded) =
      .ok ((scanned found).filter fun v =>
        d.isTyped v && (d.hasTypeIn included v && !d.hasTypeIn excluded v)) := by
  have hrun : d.chosen source fields base (.types included excluded) =
      inContext (fieldContext .children base)
        (source.listFields >>= fun found =>
          (d.candidates included excluded (scanned found)).outcome) := by
    rw [chosen, childSources, Run.outcome_within, Run.outcome_bind]
    rfl
  rw [hrun, hfound, Outcome.ok_bind, outcome_candidates hincluded hexcluded htypes]
  rfl

theorem chosen_types_error {f : Failure} (hfound : source.listFields = .error f) :
    d.chosen source fields base (.types included excluded) =
      .error (f.within (fieldContext .children base)) := by
  rw [chosen, childSources, Run.outcome_within, Run.outcome_bind, Run.outcome_lift, hfound]
  rfl

/-- Every value with a type has one that a star matches. -/
theorem hasTypeIn_usualInclude (hv : d.isTyped v = true) :
    d.hasTypeIn Selector.usualInclude v = true := by
  rw [isTyped, Bool.and_eq_true] at hv
  rw [hasTypeIn]
  cases ht : d.baseType? v with
  | none =>
    rw [ht] at hv
    cases hv.2
  | some t => exact Selector.matchesSome_usualInclude t

theorem hasTypeIn_nil : d.hasTypeIn [] v = false := by
  rw [hasTypeIn]
  cases d.baseType? v <;> rfl

theorem chosen_include (hfound : source.listFields = .ok found)
    (htypes : d.ExtractsTypes (scanned found))
    (ordered : ∀ p ∈ patterns, ¬Glob.HasReversedRange p) :
    d.chosen source fields base (.types patterns []) =
      .ok (((scanned found).filter d.isTyped).filter (d.hasTypeIn patterns)) := by
  rw [chosen_types hfound htypes ordered ordered_nil, List.filter_filter]
  refine congrArg _ (List.filter_congr fun v _ => ?_)
  rw [hasTypeIn_nil, Bool.not_false, Bool.and_true, Bool.and_comm]

theorem chosen_exclude (hfound : source.listFields = .ok found)
    (htypes : d.ExtractsTypes (scanned found))
    (ordered : ∀ p ∈ patterns, ¬Glob.HasReversedRange p) :
    d.chosen source fields base (.types Selector.usualInclude patterns) =
      .ok (((scanned found).filter d.isTyped).filter (!d.hasTypeIn patterns ·)) := by
  rw [chosen_types hfound htypes ordered_usualInclude ordered, List.filter_filter]
  refine congrArg _ (List.filter_congr fun v _ => ?_)
  cases hv : d.isTyped v with
  | true => rw [hasTypeIn_usualInclude hv, Bool.true_and, Bool.and_comm]
  | false => rw [Bool.false_and, Bool.and_false]

theorem chosen_everything (hfound : source.listFields = .ok found)
    (htypes : d.ExtractsTypes (scanned found)) :
    d.chosen source fields base (.types [units "*"] []) =
      .ok ((scanned found).filter d.isTyped) := by
  refine (chosen_exclude hfound htypes ordered_nil).trans (congrArg _ ?_)
  exact List.filter_eq_self.2 fun v _ => by rw [hasTypeIn_nil, Bool.not_false]

variable [Validator] [LawfulValidator]

/-- The selections that include and that exclude the same patterns share out what the selection of
everything finds: each occurrence is kept by one of them, in the order of the scan. Everything that
is found is every object in a field or in the array of a field whose base type is a text that is not
empty. If the fields cannot be listed, all three selections fail alike. -/
theorem include_exclude_partition (d : Definition) (source : Value) (fields : Fields)
    (base : Option Text) (patterns : List Text)
    (typed : ∀ found, source.listFields = .ok found → d.ExtractsTypes (scanned found))
    (ordered : ∀ p ∈ patterns, ¬Glob.HasReversedRange p) :
    ∃ including excluding everything,
      Selector.compile (Selector.written Selector.includeKey patterns) = .ok including ∧
      Selector.compile (Selector.written Selector.excludeKey patterns) = .ok excluding ∧
      Selector.compile (Selector.written Selector.includeKey [units "*"]) = .ok everything ∧
      (∀ f, source.listFields = .error f → ∀ selector ∈ [including, excluding, everything],
        d.chosen source fields base selector = .error (f.within (fieldContext .children base))) ∧
      ∀ found, source.listFields = .ok found →
        ∃ all, d.chosen source fields base everything = .ok all ∧
          d.chosen source fields base including = .ok (all.filter (d.hasTypeIn patterns)) ∧
          d.chosen source fields base excluding = .ok (all.filter (!d.hasTypeIn patterns ·)) ∧
          all = (scanned found).filter d.isTyped ∧
          ∀ v, v ∈ all ↔ v.isObjectLike = true ∧
            (∃ t, t ≠ [] ∧ (d.baseType v).outcome = .ok (some t)) ∧
            ((∃ name, (name, v) ∈ found) ∨
              ∃ name items frame, (name, .array items frame) ∈ found ∧ some v ∈ items) := by
  refine ⟨_, _, _, Selector.compile_written_include patterns,
    Selector.compile_written_exclude patterns, Selector.compile_written_include [units "*"], ?_, ?_⟩
  · intro f hf selector hselector
    simp only [List.mem_cons, List.not_mem_nil, or_false] at hselector
    obtain rfl | rfl | rfl := hselector
    · exact chosen_types_error hf
    · exact chosen_types_error hf
    · exact chosen_types_error hf
  · intro found hfound
    have htypes := typed found hfound
    refine ⟨_, chosen_everything hfound htypes, chosen_include hfound htypes ordered,
      chosen_exclude hfound htypes ordered, rfl, fun v => ?_⟩
    rw [List.mem_filter, isTyped_iff, and_comm, and_assoc]
    exact and_congr_right fun hv => and_congr_right fun _ => mem_scanned_iff hv

end Selections

end Host

open scoped SampleHost StandardValidator

/-- The children of a list, shared out by a pattern for types that begin with a letter. -/
theorem chosen_text_note :
    ∃ including excluding source,
      source = plainSource "list" [plainSource "text" [], plainSource "note" []] ∧
      Selector.compile (Selector.written Selector.includeKey [units "t*"]) = .ok including ∧
      Selector.compile (Selector.written Selector.excludeKey [units "t*"]) = .ok excluding ∧
      default.chosen source default.fields (some (units "list")) including =
        .ok [plainSource "text" []] ∧
      default.chosen source default.fields (some (units "list")) excluding =
        .ok [plainSource "note" []] := by
  have hfound : (plainSource "list" [plainSource "text" [], plainSource "note" []]).listFields =
    .ok [(units "type", .ofString "list"),
      (units "children", .list [plainSource "text" [], plainSource "note" []])] := rfl
  have typed : ∀ found,
      (plainSource "list" [plainSource "text" [], plainSource "note" []]).listFields = .ok found →
        default.ExtractsTypes (scanned found) := by
    intro found h
    obtain rfl := Except.ok.inj (hfound.symm.trans h)
    intro v hv hobject
    have hmem : v ∈ [.ofString "list", plainSource "text" [], plainSource "note" []] := hv
    simp only [List.mem_cons, List.not_mem_nil, or_false] at hmem
    obtain rfl | rfl | rfl := hmem
    · cases hobject
    · exact ⟨some (units "text"), rfl⟩
    · exact ⟨some (units "note"), rfl⟩
  have ordered : ∀ p ∈ [units "t*"], ¬Glob.HasReversedRange p := by
    have hread : Glob.Reads (units "t*") [.literal (unit 't'), .star] :=
      .literal (by decide) (by decide) (by decide) (.star .nil)
    rw [List.forall_mem_singleton, Glob.hasReversedRange_iff hread]
    decide
  obtain ⟨including, excluding, _, hincluding, hexcluding, _, _, hchosen⟩ :=
    include_exclude_partition default _ default.fields (some (units "list")) _ typed ordered
  obtain ⟨all, -, hkept, hleft, rfl, -⟩ := hchosen _ hfound
  exact ⟨including, excluding, _, rfl, hincluding, hexcluding, hkept.trans rfl, hleft.trans rfl⟩

end Definition

end TreeExtraction
