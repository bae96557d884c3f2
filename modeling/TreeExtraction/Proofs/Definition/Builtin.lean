import TreeExtraction.Definition.Builtin
import TreeExtraction.Proofs.Definition.Reachable

/-! # Built-in definitions can be read

Every lawful validator accepts the built-in definitions. Of what they hold only truncations, tables
and lists need a validator; the rest is read alike by all of them.
-/

namespace TreeExtraction.Builtin

open Definition (compileFields compileOverrides exists_compile)

variable [Validator]

open Validator LawfulValidator

theorem exists_optional [LawfulValidator] {α : Type} {s : Schema α} {v : Value} {a : α}
    (hv : v ≠ .undefined) (h : safeParse s v = .ok a) : ∃ o, safeParse (optional s) v = .ok o :=
  ⟨some a, optional_ok.2 (.inr ⟨hv, a, h, rfl⟩)⟩

theorem compile_truncation [LawfulValidator] {n : Nat}
    (hn : (Number.ofNat n).isInteger = true) (hnan : Number.ofNat n ≠ .nan) :
    Transform.compile (truncation n) = .ok (.builtin (.truncate (some (.ofNat n)) none)) := by
  have hlength : safeParse (integer Validator.number) (.number (.ofNat n)) = .ok (.ofNat n) :=
    integer_ok.2 ⟨number_ok.2 ⟨rfl, hnan⟩, hn⟩
  exact Transform.compileMapping_written (b := .truncate (some (.ofNat n)) none)
    ⟨some (.ofNat n), _, optional_ok.2 (.inr ⟨nofun, _, hlength, rfl⟩),
      ⟨none, _, optional_undefined _, rfl, rfl⟩, rfl⟩

theorem exists_record_documentIcons [LawfulValidator] :
    ∃ t, safeParse (record text text) (.mapping documentIcons) = .ok t := by
  apply exists_record
  · simp [documentIcons, textEntry, Value.ofString]
  · simp [documentIcons, textEntry, Value.ofString, text_ok]

variable [PureHost]

/-- A field specification that can be read and stands alone is read as an override. -/
theorem exists_compileFields_label {v : Value} {nodeType : Option Text}
    (hv : v ≠ .undefined) (h : ∃ s, Spec.compile v = .ok s) :
    ∃ o, compileFields (fun f => Entries.get [(units "label", v)] f.key) nodeType = .ok o := by
  obtain ⟨s, hs⟩ := h
  have hlabel : Definition.compileField Spec.compile
      (fun f => Entries.get [(units "label", v)] f.key) nodeType .label = .ok (some s) :=
    Definition.compileField_of_ne hv hs
  refine ⟨{ label := some s }, ?_⟩
  rw [compileFields, hlabel]
  rfl

variable [LawfulValidator]

/-- Stages of which a truncation is one are read if the others are. -/
theorem exists_compile_truncated {n : Nat} {es : Entries} {path fallback : Option Text}
    (hn : (Number.ofNat n).isInteger = true) (hnan : Number.ofNat n ≠ .nan)
    (hes : Spec.compile (.mapping es) = Spec.structured <$>
      (Spec.compileStage Transform.compile (truncation n) >>=
        fun t => .ok ⟨path, fallback, none, t, none, none⟩)) :
    ∃ s, Spec.compile (.mapping es) = .ok s := by
  have htransform : Spec.compileStage Transform.compile (truncation n) =
      .ok (some (.builtin (.truncate (some (.ofNat n)) none))) := by
    change some <$> Transform.compile (truncation n) = _
    rw [compile_truncation hn hnan]
    rfl
  rw [hes, htransform]
  exact ⟨_, rfl⟩

theorem exists_compile_plain : ∃ d, Definition.compile plain = .ok d := by
  exact exists_compile rfl (by decide) rfl ⟨_, optional_undefined _⟩ ⟨_, optional_undefined _⟩
    ⟨_, [], optional_undefined _, rfl⟩ ⟨_, optional_undefined _⟩

/-- Overrides of labels can be read if the labels can. -/
theorem exists_compileOverrides {es : Entries}
    (h : ∀ e ∈ es, ∃ label, e.2 = .mapping [entry "label" (.mapping label)] ∧
      ∃ s, Spec.compile (.mapping label) = .ok s) :
    ∃ types overrides, safeParse (optional (record text Outline.overridesSchema)) (.mapping es) =
        .ok types ∧ compileOverrides (types.getD []) = .ok overrides := by
  have hread (label : Entries) : safeParse Outline.overridesSchema
      (.mapping [entry "label" (.mapping label)]) =
        .ok fun f => Entries.get [entry "label" (.mapping label)] f.key :=
    Outline.overridesSchema_ok.2 ⟨_, Value.objectEntries?_mapping_of_notMem _
      (by simp only [entry, Table.keys, List.map_cons, List.map_nil]; decide),
      List.forall_mem_singleton.2 (by simp only [entry]; decide), fun _ => rfl⟩
  have hmapping : ∀ e ∈ es, ∀ f source frame, e.2 ≠ .function f source frame := by
    intro e he
    obtain ⟨label, hlabel, -⟩ := h e he
    simp [hlabel]
  obtain ⟨types, htypes⟩ := exists_record (s := Outline.overridesSchema) hmapping fun e he => by
    obtain ⟨label, hlabel, -⟩ := h e he
    exact ⟨_, hlabel ▸ hread label⟩
  have hfields : ∀ e ∈ types, ∃ o : Text × Overrides,
      o.1 = e.1 ∧ compileFields e.2 (some e.1) = .ok o.2 := by
    intro e he
    obtain ⟨items, hitems, hrecord⟩ := exists_of_record htypes
    rw [Value.objectEntries?_mapping [] .ordinary hmapping] at hitems
    obtain rfl := Option.some.inj hitems
    obtain ⟨-, item, hitem, -, hitemRead⟩ := hrecord e he
    obtain ⟨label, hlabel, hcompile⟩ := h item hitem
    rw [hlabel, hread label] at hitemRead
    obtain ⟨o, ho⟩ := exists_compileFields_label (v := .mapping label) (by simp) hcompile
    exact ⟨(e.1, o), rfl, Except.ok.inj hitemRead ▸ ho⟩
  obtain ⟨overrides, hoverrides⟩ := exists_forall₂ hfields
  exact ⟨some types, overrides, optional_ok.2 (.inr ⟨by simp, _, htypes, rfl⟩),
    Definition.compileOverrides_eq_ok.2 hoverrides⟩

theorem exists_compile_documentOverrides :
    ∀ e ∈ documentOverrides, ∃ label, e.2 = .mapping [entry "label" (.mapping label)] ∧
      ∃ s, Spec.compile (.mapping label) = .ok s := by
  intro e he
  simp only [documentOverrides, List.mem_cons, List.not_mem_nil, or_false] at he
  obtain rfl | rfl | rfl | rfl | rfl | rfl := he
  case inr.inr.inr.inr.inr =>
    exact ⟨_, rfl, exists_compile_truncated (n := 40) (by decide +kernel) (by decide +kernel) rfl⟩
  all_goals exact ⟨_, rfl, _, rfl⟩

theorem exists_compile_document : ∃ d, Definition.compile document = .ok d := by
  have hget : Entries.get documentEntries FieldName.label.key =
      .mapping [textEntry "path" "value", textEntry "fallback" "type",
        entry "transform" (truncation 60)] := rfl
  obtain ⟨s, hs⟩ := exists_compile_truncated (n := 60) (by decide +kernel) (by decide +kernel)
    (show Spec.compile (Entries.get documentEntries FieldName.label.key) = Spec.structured <$>
      (Spec.compileStage Transform.compile (truncation 60) >>= fun t =>
        .ok ⟨some (units "value"), some (units "type"), none, t, none, none⟩) from rfl)
  have hfields : ∃ o, compileFields (fun f => Entries.get documentEntries f.key) none = .ok o := by
    rw [compileFields, Definition.compileField_of_ne (by simp [hget]) hs]
    exact ⟨_, rfl⟩
  obtain ⟨fields, hfields⟩ := hfields
  obtain ⟨icons, hicons⟩ := exists_record_documentIcons
  have hignored := array_text [units "yaml", units "definition"]
  have hiconsKey : Entries.get documentEntries Outline.iconsKey = .mapping documentIcons := rfl
  have hignoredKey : Entries.get documentEntries Outline.ignoreTypesKey =
    .list ([units "yaml", units "definition"].map .text) := rfl
  have hiconsRead := exists_optional (by simp [hiconsKey]) (hiconsKey ▸ hicons)
  have hignoredRead := exists_optional (by simp [hignoredKey, Value.list]) (hignoredKey ▸ hignored)
  exact exists_compile rfl (by decide) hfields hiconsRead ⟨_, optional_undefined _⟩
    (exists_compileOverrides exists_compile_documentOverrides) hignoredRead

/-- All built-in definitions can be read. -/
theorem exists_compile_of_mem : ∀ e ∈ all, ∃ d, Definition.compile e.2 = .ok d := by
  intro e he
  simp only [all, List.mem_cons, List.not_mem_nil, or_false] at he
  obtain rfl | rfl := he
  · exact exists_compile_document
  · exact exists_compile_plain

end TreeExtraction.Builtin
