import TreeExtraction.Proofs.Definition.FieldSet
import TreeExtraction.Proofs.Icon.RoundTrip
import TreeExtraction.Proofs.Text.ReadingOrder

/-! # Reachable definitions

A definition is reachable if it arises from the default one by reading serialized definitions over
it, one after the other. Every reachable definition holds data that has been read, its icons extend
the baseline, and nothing in it is repeated.
-/

namespace TreeExtraction

/-! ## The outline -/

namespace Outline

/-- The keys of a serialized definition. -/
def keys : List Text :=
  FieldName.all.map FieldName.key ++ [iconsKey, iconPacksKey, typeOverridesKey, ignoreTypesKey]

theorem nodup_keys : keys.Nodup := by
  decide

theorem nodup_fieldKeys : (FieldName.all.map FieldName.key).Nodup := by
  decide

variable [Validator] {look : Text → Value}

open Validator

theorem keys_rawFields (fs : List FieldName) : (rawFields fs).keys = fs.map FieldName.key := by
  induction fs with
  | nil => rfl
  | cons f fs ih =>
    rw [rawFields, Shape.keys, Shape.keys_map, ih]
    rfl

theorem keys_fieldShape : fieldShape.keys = FieldName.all.map FieldName.key :=
  keys_rawFields FieldName.all

theorem reads_settingsShape {outline : RawFields → Outline} :
    settingsShape.Reads look outline ↔ ∃ icons packs overrides ignored,
      safeParse (optional (record text text)) (look iconsKey) = .ok icons ∧
      safeParse (optional (array IconPack.schema)) (look iconPacksKey) = .ok packs ∧
      safeParse (optional (record text overridesSchema)) (look typeOverridesKey) = .ok overrides ∧
      safeParse (optional (array text)) (look ignoreTypesKey) = .ok ignored ∧
      outline = fun fields => ⟨fields, icons, packs, overrides, ignored⟩ := by
  simp only [settingsShape, Shape.Reads]
  constructor
  · rintro ⟨icons, _, hicons, ⟨packs, _, hpacks, ⟨overrides, _, hoverrides,
      ⟨ignored, _, hignored, rfl, rfl⟩, rfl⟩, rfl⟩, rfl⟩
    exact ⟨icons, packs, overrides, ignored, hicons, hpacks, hoverrides, hignored, rfl⟩
  · rintro ⟨icons, packs, overrides, ignored, hicons, hpacks, hoverrides, hignored, rfl⟩
    exact ⟨icons, _, hicons, ⟨packs, _, hpacks, ⟨overrides, _, hoverrides,
      ⟨ignored, _, hignored, rfl, rfl⟩, rfl⟩, rfl⟩, rfl⟩

variable [LawfulValidator] {raw : RawFields} {v : Value} {o : Outline}

open LawfulValidator

theorem reads_rawFields (fs : List FieldName) :
    (rawFields fs).Reads look raw ↔ ∀ f, raw f = if f ∈ fs then look f.key else .undefined := by
  induction fs generalizing raw with
  | nil => simp [rawFields, Shape.Reads, funext_iff]
  | cons g fs ih =>
    simp only [rawFields, Shape.Reads, Shape.reads_map]
    constructor
    · rintro ⟨a, _, ha, ⟨rest, hrest, rfl⟩, rfl⟩ f
      have hg := of_optional_unknown ha
      by_cases hf : f = g
      · simp [hf, hg]
      · simp [hf, ih.1 hrest f]
    · intro h
      obtain ⟨a, ha⟩ := exists_optional_unknown (look g.key)
      have hg := of_optional_unknown ha
      refine ⟨a, _, ha, ⟨fun f => if f ∈ fs then look f.key else .undefined,
        ih.2 fun _ => rfl, rfl⟩, funext fun f => ?_⟩
      by_cases hf : f = g
      · rw [hf, h g, if_pos List.mem_cons_self]
        simp [hg]
      · simp [h f, hf]

/-- Field specifications are handed on as they are. -/
theorem reads_fieldShape : fieldShape.Reads look raw ↔ ∀ f, raw f = look f.key := by
  rw [fieldShape, reads_rawFields]
  exact forall_congr' fun f => by rw [if_pos f.mem_all]

theorem overridesSchema_ok : safeParse overridesSchema v = .ok raw ↔
    ∃ es, v.objectEntries? (FieldName.all.map FieldName.key) = some es ∧
      (∀ e ∈ es, e.1 ∈ FieldName.all.map FieldName.key) ∧ ∀ f, raw f = Entries.get es f.key := by
  simp only [overridesSchema, object_ok, keys_fieldShape, reads_fieldShape]

/-- What a serialized definition is read as, part by part. -/
theorem schema_ok : safeParse schema v = .ok o ↔
    ∃ es, v.objectEntries? keys = some es ∧ (∀ e ∈ es, e.1 ∈ keys) ∧
      (∀ f, o.fields f = Entries.get es f.key) ∧
      safeParse (optional (record text text)) (Entries.get es iconsKey) = .ok o.icons ∧
      safeParse (optional (array IconPack.schema)) (Entries.get es iconPacksKey) =
        .ok o.iconPacks ∧
      safeParse (optional (record text overridesSchema)) (Entries.get es typeOverridesKey) =
        .ok o.typeOverrides ∧
      safeParse (optional (array text)) (Entries.get es ignoreTypesKey) = .ok o.ignoreTypes := by
  have hkeys : ((fieldShape.both settingsShape).map fun p => p.2 p.1).keys = keys := by
    rw [Shape.keys_map, Shape.keys_both, keys_fieldShape]
    rfl
  rw [schema, object_ok]
  apply exists_congr
  intro es
  rw [hkeys]
  apply and_congr_right
  intro _
  apply and_congr_right
  intro _
  simp only [Shape.reads_map, Shape.reads_both, reads_fieldShape, reads_settingsShape]
  constructor
  · rintro ⟨⟨raw, _⟩, ⟨hraw, icons, packs, overrides, ignored, hicons, hpacks, hoverrides, hignored,
      rfl⟩, rfl⟩
    exact ⟨hraw, hicons, hpacks, hoverrides, hignored⟩
  · rintro ⟨hraw, hicons, hpacks, hoverrides, hignored⟩
    exact ⟨(o.fields, _), ⟨hraw, _, _, _, _, hicons, hpacks, hoverrides, hignored, rfl⟩, rfl⟩

end Outline

namespace Definition

/-! ## Lists without repetitions -/

theorem nodup_foldl_distinct {ts seen : List Text} (h : seen.Nodup) :
    (ts.foldl (fun seen t => if seen.contains t then seen else t :: seen) seen).Nodup := by
  induction ts generalizing seen with
  | nil => exact h
  | cons t ts ih =>
    rw [List.foldl_cons]
    split
    · exact ih h
    · next hnew =>
      rw [List.contains_iff_mem] at hnew
      exact ih (List.nodup_cons.2 ⟨hnew, h⟩)

theorem nodup_distinct (ts : List Text) : (distinct ts).Nodup :=
  List.nodup_reverse.2 (nodup_foldl_distinct .nil)

theorem foldl_distinct {ts seen : List Text} (h : (ts.reverse ++ seen).Nodup) :
    ts.foldl (fun seen t => if seen.contains t then seen else t :: seen) seen =
      ts.reverse ++ seen := by
  induction ts generalizing seen with
  | nil => rfl
  | cons t ts ih =>
    rw [List.reverse_cons, List.append_assoc, List.singleton_append] at h ⊢
    have hnew : t ∉ seen := (List.nodup_cons.1 (List.nodup_append.1 h).2.1).1
    rw [List.foldl_cons, if_neg (by rwa [List.contains_iff_mem]), ih h]

/-- A list without repetitions is left alone. -/
theorem distinct_eq_self {ts : List Text} (h : ts.Nodup) : distinct ts = ts := by
  have hreverse : (ts.reverse ++ []).Nodup := by
    rw [List.append_nil]
    exact List.nodup_reverse.2 h
  rw [distinct, foldl_distinct hreverse, List.append_nil, List.reverse_reverse]

theorem mem_foldl_distinct {ts seen : List Text} {t : Text} :
    t ∈ ts.foldl (fun seen t => if seen.contains t then seen else t :: seen) seen ↔
      t ∈ ts ∨ t ∈ seen := by
  induction ts generalizing seen with
  | nil => simp
  | cons u ts ih =>
    rw [List.foldl_cons, ih]
    by_cases hu : u ∈ seen
    · rw [if_pos (List.contains_iff_mem.2 hu)]
      grind
    · rw [if_neg (by rwa [List.contains_iff_mem])]
      grind

@[simp] theorem mem_distinct {ts : List Text} {t : Text} : t ∈ distinct ts ↔ t ∈ ts := by
  rw [distinct, List.mem_reverse, mem_foldl_distinct]
  simp

/-! ## Overrides -/

/-- A property of all entries is kept when entries that have it are put in. -/
theorem forall_foldl_insert {α : Type} {P : Text × α → Prop} {t es : Table α}
    (ht : ∀ e ∈ t, P e) (hes : ∀ e ∈ es, P e) :
    ∀ e ∈ es.foldl (fun m e => Table.insert m e.1 e.2) t, P e := by
  induction es generalizing t with
  | nil => exact ht
  | cons f es ih =>
    refine ih (fun e he => ?_) fun e he => hes e (List.mem_cons_of_mem _ he)
    rcases Table.mem_insert he with rfl | he
    · exact hes _ List.mem_cons_self
    · exact ht e he

theorem nodup_keys_foldl_insert {α : Type} {t : Table α} (h : (Table.keys t).Nodup)
    (es : Table α) : (Table.keys (es.foldl (fun m e => Table.insert m e.1 e.2) t)).Nodup := by
  induction es generalizing t with
  | nil => exact h
  | cons e es ih => exact ih (Table.nodup_keys_insert h)

theorem areNamed_baseline : Table.AreNamed (Table.keys Icon.baseline) := by
  rw [Table.AreNamed]
  decide

variable [Validator]

open Validator LawfulValidator

/-! ## Icon packs -/

theorem mapM_compile_serialize {packs : List IconPack}
    (h : ∀ p ∈ packs, safeParse IconPack.schema p.serialize = .ok p) :
    (packs.mapM fun p => IconPack.compile p.serialize) = .ok packs := by
  induction packs with
  | nil => rfl
  | cons p packs ih =>
    rw [List.mapM_cons, IconPack.compile, h p List.mem_cons_self,
      ih fun q hq => h q (List.mem_cons_of_mem _ hq)]
    rfl

section Lawful

variable [LawfulValidator] {d : Definition} {o : Outline} {raw : Value}

theorem notMem_keys_icons (hread : safeParse Outline.schema raw = .ok o)
    (h : Value.parentName ∉ Table.keys d.icons) :
    Value.parentName ∉ Table.keys (Table.merge d.icons (o.icons.getD [])) := by
  obtain ⟨_, -, -, -, hicons, -⟩ := Outline.schema_ok.1 hread
  rw [Table.mem_keys_merge, not_or]
  refine ⟨h, ?_⟩
  cases ho : o.icons with
  | none => exact List.not_mem_nil
  | some icons =>
    intro hmem
    obtain ⟨e, he, hname⟩ := List.mem_map.1 hmem
    obtain ⟨_, -, hrecord⟩ := exists_of_record (of_optional hicons icons ho)
    exact (hrecord e he).1 hname

/-- Packs that have been read are read from their serialized forms. -/
theorem forall_iconPacks (hread : safeParse Outline.schema raw = .ok o) :
    ∀ packs ∈ o.iconPacks, ∀ p ∈ packs, safeParse IconPack.schema p.serialize = .ok p := by
  obtain ⟨_, -, -, -, -, hpacks, -⟩ := Outline.schema_ok.1 hread
  intro packs ho p hp
  obtain ⟨item, hitem⟩ := exists_of_array (of_optional hpacks packs ho) p hp
  exact IconPack.safeParse_serialize hitem

/-- Packs that have been read are read once more to no effect. -/
theorem mapM_iconPacks (hread : safeParse Outline.schema raw = .ok o) :
    (o.iconPacks.mapM fun packs => packs.mapM fun p => IconPack.compile p.serialize) =
      .ok o.iconPacks := by
  cases ho : o.iconPacks with
  | none => rfl
  | some packs =>
    rw [Option.mapM_some, mapM_compile_serialize (forall_iconPacks hread packs ho)]
    rfl

end Lawful

/-! ## The invariant -/

variable [PureHost]

/-- Overrides are read type by type. -/
theorem compileOverrides_eq_ok {t : Table RawFields} {os : Table Overrides} :
    compileOverrides t = .ok os ↔
      List.Forall₂ (fun e o => o.1 = e.1 ∧ compileFields e.2 (some e.1) = .ok o.2) t os := by
  induction t generalizing os with
  | nil => simp [compileOverrides, eq_comm]
  | cons e t ih =>
    rcases e with ⟨nodeType, raw⟩
    rw [compileOverrides, List.forall₂_cons_left_iff, Outcome.bind_eq_ok]
    constructor
    · rintro ⟨first, hfirst, h⟩
      obtain ⟨others, hothers, h⟩ := Outcome.bind_eq_ok.1 h
      cases h
      exact ⟨(nodeType, first), others, ⟨rfl, hfirst⟩, ih.1 hothers, rfl⟩
    · rintro ⟨⟨l, first⟩, others, ⟨rfl, hfirst⟩, hothers, rfl⟩
      exact ⟨first, hfirst, Outcome.bind_eq_ok.2 ⟨others, ih.2 hothers, rfl⟩⟩

/-- Definitions that arise from the default one by reading serialized definitions over it. -/
inductive Reachable : Definition → Prop where
  | default : Reachable default
  | merge {d d' : Definition} {raw : Value} (hd : Reachable d) (hraw : raw.isWellFormed = true)
      (h : d.merge raw = .ok d') : Reachable d'

/-- What holds of every reachable definition. -/
structure Invariant (d : Definition) : Prop where
  fields : d.fields.all.Each Spec.IsReadable Selector.IsReadable
  icons : Table.Extends Icon.baseline d.icons
  iconNames : Value.parentName ∉ Table.keys d.icons
  iconPacks : ∀ p ∈ d.iconPacks, Validator.safeParse IconPack.schema p.serialize = .ok p
  typeOverrides : ∀ e ∈ d.typeOverrides,
    e.1 ≠ Value.parentName ∧ e.2.Each Spec.IsReadable Selector.IsReadable
  distinctTypes : (Table.keys d.typeOverrides).Nodup
  distinctIgnored : d.ignoreTypes.Nodup

theorem invariant_default : Invariant default where
  fields := {
    label := by rintro _ ⟨⟩; trivial
    type := by rintro _ ⟨⟩; trivial
    children := by rintro _ ⟨⟩; exact ⟨trivial, nofun⟩
    icon := by rintro _ ⟨⟩; rfl
    contentLines := by rintro _ ⟨⟩; rfl
    sourceLocation := by rintro _ ⟨⟩; rfl
    extra := by rintro _ ⟨⟩; rfl }
  icons := Table.extends_self (by decide)
  iconNames := by decide
  iconPacks _ h := absurd h List.not_mem_nil
  typeOverrides _ h := absurd h List.not_mem_nil
  distinctTypes := List.nodup_nil
  distinctIgnored := List.nodup_nil

variable [LawfulValidator] {d d' : Definition} {o : Outline} {raw : Value}

/-- A definition is put together from what is read of a serialized one. -/
theorem merge_eq_ok : d.merge raw = .ok d' ↔ ∃ o fields overrides,
    safeParse Outline.schema raw = .ok o ∧ compileFields o.fields none = .ok fields ∧
      compileOverrides (o.typeOverrides.getD []) = .ok overrides ∧ d' = {
        fields := d.fields.overlay fields
        icons := Table.merge d.icons (o.icons.getD [])
        iconPacks := o.iconPacks.getD d.iconPacks
        typeOverrides := overrides.foldl (fun m e => Table.insert m e.1 e.2) d.typeOverrides
        ignoreTypes := (o.ignoreTypes.map distinct).getD d.ignoreTypes } := by
  rw [Definition.merge]
  cases hread : safeParse Outline.schema raw with
  | error issues => simp
  | ok o =>
    simp only [mergeOutline, mapM_iconPacks hread, Outcome.bind_eq_ok, Outcome.ok_bind]
    constructor
    · rintro ⟨fields, hfields, overrides, hoverrides, h⟩
      cases h
      exact ⟨o, fields, overrides, rfl, hfields, hoverrides, rfl⟩
    · rintro ⟨_, fields, overrides, ⟨⟩, hfields, hoverrides, rfl⟩
      exact ⟨fields, hfields, overrides, hoverrides, rfl⟩

/-- A serialized definition can be read if its parts can. -/
theorem exists_compile {es : Entries} {fields : Overrides}
    (hes : (Value.mapping es).objectEntries? Outline.keys = some es)
    (hkeys : ∀ e ∈ es, e.1 ∈ Outline.keys)
    (hfields : compileFields (fun f => Entries.get es f.key) none = .ok fields)
    (hicons : ∃ icons,
      safeParse (optional (record text text)) (Entries.get es Outline.iconsKey) = .ok icons)
    (hpacks : ∃ packs, safeParse (optional (array IconPack.schema))
      (Entries.get es Outline.iconPacksKey) = .ok packs)
    (htypes : ∃ types overrides, safeParse (optional (record text Outline.overridesSchema))
      (Entries.get es Outline.typeOverridesKey) = .ok types ∧
        compileOverrides (types.getD []) = .ok overrides)
    (hignored : ∃ ignored,
      safeParse (optional (array text)) (Entries.get es Outline.ignoreTypesKey) = .ok ignored) :
    ∃ d, compile (.mapping es) = .ok d := by
  obtain ⟨icons, hicons⟩ := hicons
  obtain ⟨packs, hpacks⟩ := hpacks
  obtain ⟨types, overrides, htypes, hoverrides⟩ := htypes
  obtain ⟨ignored, hignored⟩ := hignored
  have hread : safeParse Outline.schema (.mapping es) =
      .ok ⟨fun f => Entries.get es f.key, icons, packs, types, ignored⟩ :=
    Outline.schema_ok.2 ⟨es, hes, hkeys, fun _ => rfl, hicons, hpacks, htypes, hignored⟩
  exact ⟨_, merge_eq_ok.2 ⟨_, fields, overrides, hread, hfields, hoverrides, rfl⟩⟩

/-- Overrides that have been read are readable, and none stands under the name of the inherited
object. -/
theorem forall_overrides {overrides : Table Overrides} (hraw : raw.isWellFormed = true)
    (hread : safeParse Outline.schema raw = .ok o)
    (h : compileOverrides (o.typeOverrides.getD []) = .ok overrides) :
    ∀ e ∈ overrides, e.1 ≠ Value.parentName ∧ e.2.Each Spec.IsReadable Selector.IsReadable := by
  obtain ⟨es, hentries, -, -, -, -, htypes, -⟩ := Outline.schema_ok.1 hread
  have hwell := Value.isWellFormed_of_objectEntries? hentries hraw
  intro e he
  obtain ⟨⟨nodeType, fields⟩, hmem, rfl, hfields⟩ :=
    exists_of_mem_forall₂ (compileOverrides_eq_ok.1 h) he
  cases ho : o.typeOverrides with
  | none =>
    rw [ho] at hmem
    cases hmem
  | some types =>
    rw [ho] at hmem
    obtain ⟨items, hitems, hrecord⟩ := exists_of_record (of_optional htypes types ho)
    obtain ⟨hparent, item, hitem, -, hoverrides⟩ := hrecord _ hmem
    obtain ⟨entries, hobject, -, hlook⟩ := Outline.overridesSchema_ok.1 hoverrides
    have hitems' := Value.isWellFormed_of_objectEntries? hitems (Entries.get_isWellFormed hwell _)
    have hentries' :=
      Value.isWellFormed_of_objectEntries? hobject (Entries.value_isWellFormed hitems' hitem)
    refine ⟨hparent, each_isReadable_of_compileFields (fun f => ?_) hfields⟩
    rw [hlook f]
    exact Entries.get_isWellFormed hentries' _

/-- Reading a serialized definition over one with the invariant keeps the invariant. -/
theorem Invariant.merge (hd : Invariant d) (hraw : raw.isWellFormed = true)
    (h : d.merge raw = .ok d') : Invariant d' := by
  obtain ⟨o, fields, overrides, hread, hfields, hoverrides, rfl⟩ := merge_eq_ok.1 h
  obtain ⟨es, hentries, -, hlook, -⟩ := Outline.schema_ok.1 hread
  have hwell := Value.isWellFormed_of_objectEntries? hentries hraw
  have hfields' (f : FieldName) : (o.fields f).isWellFormed = true := by
    rw [hlook f]
    exact Entries.get_isWellFormed hwell _
  exact {
    fields := (each_isReadable_of_compileFields hfields' hfields).overlay hd.fields
    icons := hd.icons.merge areNamed_baseline _
    iconNames := notMem_keys_icons hread hd.iconNames
    iconPacks := by
      cases ho : o.iconPacks with
      | none => exact hd.iconPacks
      | some packs => exact forall_iconPacks hread packs ho
    typeOverrides := forall_foldl_insert hd.typeOverrides (forall_overrides hraw hread hoverrides)
    distinctTypes := nodup_keys_foldl_insert hd.distinctTypes _
    distinctIgnored := by
      cases o.ignoreTypes with
      | none => exact hd.distinctIgnored
      | some types => exact nodup_distinct types }

/-- Every reachable definition has the invariant. -/
theorem Reachable.invariant (h : Reachable d) : Invariant d := by
  induction h with
  | default => exact invariant_default
  | merge _ hraw hmerge ih => exact ih.merge hraw hmerge

end Definition

end TreeExtraction
