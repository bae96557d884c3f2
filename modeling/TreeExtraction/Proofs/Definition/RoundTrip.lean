import Mathlib.Data.List.Perm.Basic
import TreeExtraction.Proofs.Definition.Reachable
import TreeExtraction.Proofs.Schema.Standard
import TreeExtraction.Value.SampleHost

/-! # Written definitions are read back

A reachable definition whose specifications can be written is read from its serialized form, but for
the order of its overrides, which are written in reading order. It is read over the default icons,
which does no harm, for the icons of a reachable definition extend them.
-/

namespace TreeExtraction.Definition

/-- Whether all specifications of a definition can be written: those of its fields and overrides,
with the ones for children. -/
structure IsPortable (d : Definition) : Prop where
  fields : d.fields.all.Each Spec.IsPortable (Selector.Holds Spec.IsPortable)
  typeOverrides : ∀ e ∈ d.typeOverrides, e.2.Each Spec.IsPortable (Selector.Holds Spec.IsPortable)

theorem each_isPortable_default :
    default.fields.all.Each Spec.IsPortable (Selector.Holds Spec.IsPortable) where
  label := by rintro _ ⟨⟩; exact Spec.isPortable_path _
  type := by rintro _ ⟨⟩; exact Spec.isPortable_path _
  children := by rintro _ ⟨⟩; exact Spec.isPortable_path _
  icon := by rintro _ ⟨⟩; exact Spec.isPortable_literal _
  contentLines := by rintro _ ⟨⟩; exact Spec.isPortable_literal _
  sourceLocation := by rintro _ ⟨⟩; exact Spec.isPortable_literal _
  extra := by rintro _ ⟨⟩; exact Spec.isPortable_literal _

/-- The field specifications among some entries. -/
def rawFields (es : Entries) : RawFields := fun f => Entries.get es f.key

/-- Written field specifications are found under the keys of the fields, and nothing else is. -/
theorem keys_ofParts_fieldParts {w : FieldName → Option Value} :
    ∀ p ∈ Entries.ofParts (fieldParts w), p.1 ∈ FieldName.all.map FieldName.key := by
  intro p hp
  rw [← keys_fieldParts w]
  exact Entries.keys_ofParts_subset _ (List.mem_map_of_mem hp)

theorem get_fieldParts (w : FieldName → Option Value) (f : FieldName) :
    rawFields (Entries.ofParts (fieldParts w)) f = (w f).getD .undefined := by
  have hkeys : (Table.keys (fieldParts w)).Nodup := by
    rw [keys_fieldParts]
    exact Outline.nodup_fieldKeys
  exact Entries.get_ofParts hkeys (List.mem_map.2 ⟨f, f.mem_all, rfl⟩)

/-! ## The parts of a serialized definition -/

variable {d : Definition} {w : FieldName → Option Value}

/-- The parts of a serialized definition: its fields, and the tables and lists beside them. -/
def writtenParts (d : Definition) (w : FieldName → Option Value) (overrides : Entries) :
    Table (Option Value) :=
  fieldParts w ++ [
    (Outline.iconsKey, some (.mapping (d.icons.map fun (name, t) => (name, .text t)))),
    (Outline.iconPacksKey, some (.list (d.iconPacks.map IconPack.serialize))),
    (Outline.typeOverridesKey, some (.mapping (Table.ofList overrides))),
    (Outline.ignoreTypesKey, some (.list (d.ignoreTypes.map .text)))]

theorem keys_parts (d : Definition) (w : FieldName → Option Value) (overrides : Entries) :
    Table.keys (d.writtenParts w overrides) = Outline.keys := rfl

theorem serialize_eq_ofParts {overrides : Entries}
    (hfields : serializeFields d.fields.all none = .ok (Entries.ofParts (fieldParts w)))
    (hoverrides : serializeOverrides d.typeOverrides = .ok overrides) :
    d.serialize = .ok (.mapping (Entries.ofParts (d.writtenParts w overrides))) := by
  rw [serialize, hfields, hoverrides]
  simp [Entries.ofParts, writtenParts, Entries.ofOption]

theorem get_parts {overrides : Entries} {k : Text} {v : Option Value}
    (h : (k, v) ∈ d.writtenParts w overrides) :
    Entries.get (Entries.ofParts (d.writtenParts w overrides)) k = v.getD .undefined := by
  have hkeys : (Table.keys (d.writtenParts w overrides)).Nodup := by
    rw [keys_parts]
    exact Outline.nodup_keys
  exact Entries.get_ofParts hkeys h

theorem get_parts_key (d : Definition) (w : FieldName → Option Value) (overrides : Entries)
    (f : FieldName) :
    rawFields (Entries.ofParts (d.writtenParts w overrides)) f = (w f).getD .undefined :=
  get_parts (List.mem_append_left _ (List.mem_map.2 ⟨f, f.mem_all, rfl⟩))

/-! ## Overrides -/

section Validator

variable [PureHost] [Validator]

/-- Whether overrides for a type are read from the entries as which they are written. -/
def WrittenAs (e : Text × Overrides) (r : Text × Entries) : Prop :=
  r.1 = e.1 ∧ (∀ p ∈ r.2, p.1 ∈ FieldName.all.map FieldName.key) ∧
    compileFields (rawFields r.2) (some e.1) = .ok e.2

variable {t : Table Overrides}

/-- Overrides are written type by type. -/
theorem exists_serializeOverrides (h : ∀ e ∈ t,
    e.2.Each (RoundTrips Spec.serialize Spec.compile)
      (RoundTrips Selector.serialize Selector.compile)) :
    ∃ written : Table Entries, serializeOverrides t = .ok (Table.mapValues .mapping written) ∧
      List.Forall₂ WrittenAs t written := by
  induction t with
  | nil => exact ⟨[], rfl, .nil⟩
  | cons e t ih =>
    rcases e with ⟨nodeType, o⟩
    obtain ⟨w, hserialize, hcompile⟩ :=
      exists_serializeFields (h (nodeType, o) List.mem_cons_self) (some nodeType)
    obtain ⟨written, hwritten, hforall⟩ := ih fun e he => h e (List.mem_cons_of_mem _ he)
    refine ⟨(nodeType, Entries.ofParts (fieldParts w)) :: written, ?_, .cons ?_ hforall⟩
    · rw [serializeOverrides, hserialize, hwritten]
      rfl
    · exact ⟨rfl, keys_ofParts_fieldParts, hcompile _ (get_fieldParts w)⟩

theorem keys_of_forall₂ {written : Table Entries} (h : List.Forall₂ WrittenAs t written) :
    Table.keys written = Table.keys t := by
  induction h with
  | nil => rfl
  | cons hfirst _ ih => rw [Table.keys_cons, Table.keys_cons, ih, hfirst.1]

/-- Written overrides are read as the same overrides in reading order. -/
theorem exists_compileOverrides {written : Table Entries} (hkeys : (Table.keys t).Nodup)
    (h : List.Forall₂ WrittenAs t written) :
    ∃ t', t'.Perm t ∧
      compileOverrides (Table.mapValues rawFields (Table.ofList written)) = .ok t' := by
  have hperm : written.Perm (Table.ofList written) :=
    (Table.ofList_perm (by rwa [keys_of_forall₂ h])).symm
  have hflip : List.Forall₂ (flip WrittenAs) written t := h.flip
  rcases List.perm_comp_forall₂ hperm.symm hflip with ⟨t', ht', hread⟩
  refine ⟨t', hread, compileOverrides_eq_ok.2 ?_⟩
  rw [Table.mapValues, List.forall₂_map_left_iff]
  apply ht'.imp
  rintro r e ⟨hname, -, hfields⟩
  exact ⟨hname.symm, hname ▸ hfields⟩

variable [LawfulValidator]

open Validator LawfulValidator

/-- Written overrides are read as the entries as which they are written. -/
theorem record_overrides {written : Table Entries} (h : List.Forall₂ WrittenAs t written)
    (hkeys : (Table.keys t).Nodup) (hnames : ∀ e ∈ t, e.1 ≠ Value.parentName) :
    safeParse (record text Outline.overridesSchema)
      (.mapping (Table.ofList (Table.mapValues .mapping written))) =
        .ok (Table.mapValues rawFields (Table.ofList written)) := by
  rw [← Table.mapValues_ofList]
  refine record_mapValues nofun fun r hr => ?_
  have hperm : (Table.ofList written).Perm written :=
    Table.ofList_perm (by rwa [keys_of_forall₂ h])
  obtain ⟨e, he, hname, hfields, -⟩ := exists_of_mem_forall₂ h (hperm.mem_iff.1 hr)
  have hthen : units "then" ∉ Table.keys r.2 := by
    rintro hmem
    obtain ⟨p, hp, hkey⟩ := List.mem_map.1 hmem
    have hfield := hfields p hp
    rw [hkey] at hfield
    exact absurd hfield (by decide)
  exact ⟨hname ▸ hnames e he, text_ok.2 rfl, Outline.overridesSchema_ok.2
    ⟨_, Value.objectEntries?_mapping_of_notMem _ hthen, hfields, fun _ => rfl⟩⟩

/-! ## The whole definition -/

variable {d : Definition} {w : FieldName → Option Value} {written : Table Entries}

/-- What a definition is written as is read as its outline, with the overrides in reading order. -/
theorem safeParse_parts (hd : d.Invariant) (h : List.Forall₂ WrittenAs d.typeOverrides written) :
    safeParse Outline.schema
      (.mapping (Entries.ofParts (d.writtenParts w (Table.mapValues .mapping written)))) = .ok {
        fields := rawFields (Entries.ofParts (d.writtenParts w (Table.mapValues .mapping written)))
        icons := some d.icons
        iconPacks := some d.iconPacks
        typeOverrides := some (Table.mapValues rawFields (Table.ofList written))
        ignoreTypes := some d.ignoreTypes } := by
  have hicons : safeParse (record text text)
      (.mapping (d.icons.map fun (name, t) => (name, .text t))) = .ok d.icons :=
    record_map nofun fun e he =>
      ⟨fun hname => hd.iconNames (hname ▸ List.mem_map_of_mem he), text_ok.2 rfl, text_ok.2 rfl⟩
  have hpacks : safeParse (array IconPack.schema) (.list (d.iconPacks.map IconPack.serialize)) =
      .ok d.iconPacks := array_map hd.iconPacks
  have hoverrides := record_overrides h hd.distinctTypes fun e he => (hd.typeOverrides e he).1
  have hignored := array_text d.ignoreTypes
  have hkeys : ∀ e ∈ Entries.ofParts (d.writtenParts w (Table.mapValues .mapping written)),
      e.1 ∈ Outline.keys := by
    intro e he
    rw [← keys_parts d w]
    exact Entries.keys_ofParts_subset _ (List.mem_map_of_mem he)
  have hthen : units "then" ∉
      Table.keys (Entries.ofParts (d.writtenParts w (Table.mapValues .mapping written))) := by
    intro hmem
    obtain ⟨p, hp, hkey⟩ := List.mem_map.1 hmem
    have hfield := hkeys p hp
    rw [hkey] at hfield
    exact absurd hfield (by decide)
  refine Outline.schema_ok.2
    ⟨_, Value.objectEntries?_mapping_of_notMem _ hthen, hkeys, fun _ => rfl, ?_, ?_, ?_, ?_⟩
  · rw [get_parts (v := some (.mapping (d.icons.map fun (name, t) => (name, .text t))))
      (by simp [writtenParts])]
    exact optional_ok.2 (.inr ⟨nofun, _, hicons, rfl⟩)
  · rw [get_parts (v := some (.list (d.iconPacks.map IconPack.serialize))) (by simp [writtenParts])]
    exact optional_ok.2 (.inr ⟨nofun, _, hpacks, rfl⟩)
  · rw [get_parts (v := some (.mapping (Table.ofList (Table.mapValues .mapping written))))
      (by simp [writtenParts])]
    exact optional_ok.2 (.inr ⟨nofun, _, hoverrides, rfl⟩)
  · rw [get_parts (v := some (.list (d.ignoreTypes.map .text))) (by simp [writtenParts])]
    exact optional_ok.2 (.inr ⟨nofun, _, hignored, rfl⟩)

/-- A definition with the invariant is read over the default one as it was written, with the
overrides in reading order. -/
theorem compile_parts {t' : Table Overrides} (hd : d.Invariant)
    (h : List.Forall₂ WrittenAs d.typeOverrides written)
    (hfields : compileFields
      (rawFields (Entries.ofParts (d.writtenParts w (Table.mapValues .mapping written)))) none =
        .ok d.fields.all)
    (hoverrides :
      compileOverrides (Table.mapValues rawFields (Table.ofList written)) = .ok t')
    (ht' : t'.Perm d.typeOverrides) :
    compile (.mapping (Entries.ofParts (d.writtenParts w (Table.mapValues .mapping written)))) =
      .ok { d with typeOverrides := t' } := by
  have hkeys : (Table.keys ([] ++ t')).Nodup :=
    (Table.keys_perm ht').nodup_iff.2 hd.distinctTypes
  have hicons : Table.merge default.icons d.icons = d.icons :=
    hd.icons.merge_eq areNamed_baseline
  have hinsert : t'.foldl (fun m e => Table.insert m e.1 e.2) default.typeOverrides = t' :=
    Table.foldl_insert hkeys
  refine merge_eq_ok.2 ⟨_, _, _, safeParse_parts hd h, hfields, hoverrides, ?_⟩
  simp only [Option.getD_some, Option.map_some, Fields.overlay_all, hicons, hinsert,
    distinct_eq_self hd.distinctIgnored]

/-- A reachable definition whose specifications can be written is read from its serialized form:
with the same fields, icons, icon packs and ignored types, and with the same overrides in reading
order. -/
theorem compile_serialize_of_reachable (h : d.Reachable) (hd : d.IsPortable) :
    ∃ v t', d.serialize = .ok v ∧ compile v = .ok { d with typeOverrides := t' } ∧
      ∀ nodeType, Table.get? t' nodeType = Table.get? d.typeOverrides nodeType := by
  have hinv := h.invariant
  obtain ⟨w, hfields, hread⟩ := exists_serializeFields
    (hinv.fields.and_imp (fun _ => Spec.roundTrips) (fun _ => Selector.roundTrips) hd.fields) none
  obtain ⟨written, hwritten, hforall⟩ := exists_serializeOverrides fun e he =>
    (hinv.typeOverrides e he).2.and_imp (fun _ => Spec.roundTrips) (fun _ => Selector.roundTrips)
      (hd.typeOverrides e he)
  rcases exists_compileOverrides hinv.distinctTypes hforall with ⟨t', hperm, hoverrides⟩
  refine ⟨_, t', serialize_eq_ofParts hfields hwritten, ?_, fun nodeType => ?_⟩
  · exact compile_parts hinv hforall (hread _ (get_parts_key d w _)) hoverrides hperm
  · exact (Table.get?_perm hinv.distinctTypes hperm.symm nodeType).symm

end Validator

open scoped SampleHost StandardValidator

/-- The default definition with an override, written and read back. -/
theorem exists_compile_serialize_override :
    ∃ d, default.merge (.mapping [(Outline.typeOverridesKey,
        .mapping [(units "note", .mapping [(FieldName.label.key, .ofString "title")])])]) = .ok d ∧
      d.IsPortable ∧ ∃ v t', d.serialize = .ok v ∧
        compile v = .ok { d with typeOverrides := t' } ∧
        ∀ nodeType, Table.get? t' nodeType = Table.get? d.typeOverrides nodeType := by
  have hmerge : default.merge (.mapping [(Outline.typeOverridesKey,
      .mapping [(units "note", .mapping [(FieldName.label.key, .ofString "title")])])]) =
        .ok { default with
          typeOverrides := [(units "note", { label := some (.path (units "title")) })] } := rfl
  have hoverride : Overrides.Each Spec.IsPortable (Selector.Holds Spec.IsPortable)
      { label := some (.path (units "title")) } := {
    label := by rintro _ ⟨⟩; exact Spec.isPortable_path _
    type _ h := nomatch h
    children _ h := nomatch h
    icon _ h := nomatch h
    contentLines _ h := nomatch h
    sourceLocation _ h := nomatch h
    extra _ h := nomatch h }
  have hportable : IsPortable { default with
      typeOverrides := [(units "note", { label := some (.path (units "title")) })] } :=
    ⟨each_isPortable_default, List.forall_mem_singleton.2 hoverride⟩
  exact ⟨_, hmerge, hportable,
    compile_serialize_of_reachable (Reachable.merge .default (by decide) hmerge) hportable⟩

end TreeExtraction.Definition
