import TreeExtraction.Proofs.Definition.Changes
import TreeExtraction.Proofs.Schema.Standard
import TreeExtraction.Proofs.Value.Entries
import TreeExtraction.Value.SampleHost

/-! # Merging composes

Two serialized definitions are combined key by key: of field specifications, icon packs and ignored
types the later one counts if it is given, icons are joined name by name and overrides type by type.
Merging the combination is merging one after the other. So a definition that is configured in layers
depends on what the layers say together, and a layer that is merged again changes nothing.
-/

namespace TreeExtraction

/-! ## Combinations of serialized definitions -/

namespace Outline

/-- The later one of two values, if it is given. -/
def later (a b : Value) : Value :=
  match b with
  | .undefined => a
  | b => b

/-- The entries of a value that counts as an object; none for every other value. -/
def entriesOf (keys : List Text) (v : Value) : Entries :=
  (v.objectEntries? keys).getD []

/-- The entries of two values in one mapping, in which the later ones replace the earlier ones of
their names. -/
def joined (a b : Value) : Value :=
  match a, b with
  | .undefined, .undefined => .undefined
  | a, b => .mapping (Table.ofList (entriesOf [] a ++ entriesOf [] b))

/-- How the values of a key are combined. -/
def combineAt (key : Text) (a b : Value) : Value :=
  if key = iconsKey ∨ key = typeOverridesKey then joined a b else later a b

/-- A value that is given. -/
def given : Value → Option Value
  | .undefined => none
  | v => some v

/-- The parts of two serialized definitions, combined key by key. -/
def combinedParts (es fs : Entries) : Table (Option Value) :=
  keys.map fun k => (k, given (combineAt k (Entries.get es k) (Entries.get fs k)))

/-- The serialized definition that combines two of them, the second one over the first one. -/
def combine (a b : Value) : Value :=
  .mapping (Entries.ofParts (combinedParts (entriesOf keys a) (entriesOf keys b)))

variable {es fs : Entries} {a b : Value} {k : Text}

theorem later_undefined (a : Value) : later a .undefined = a := rfl

theorem later_of_ne (a : Value) (h : b ≠ .undefined) : later a b = b := by
  cases b <;> first | rfl | exact absurd rfl h

theorem entriesOf_eq {ks : List Text} (h : a.objectEntries? ks = some es) :
    entriesOf ks a = es := by
  rw [entriesOf, h, Option.getD_some]

theorem entriesOf_joined (h : ∀ e ∈ entriesOf [] a ++ entriesOf [] b,
      ∀ f source frame, e.2 ≠ .function f source frame) :
    entriesOf [] (joined a b) = Table.ofList (entriesOf [] a ++ entriesOf [] b) := by
  rw [joined.eq_def]
  split
  · rfl
  · exact entriesOf_eq (Value.objectEntries?_mapping [] .ordinary fun e he =>
      h e (Table.mem_of_mem_ofList he))

theorem given_getD (v : Value) : (given v).getD .undefined = v := by
  cases v <;> rfl

theorem keys_combinedParts (es fs : Entries) : Table.keys (combinedParts es fs) = keys := by
  rw [combinedParts, Table.keys, List.map_map]
  exact List.map_id _

/-- Under each key the combination has the values of the key combined. -/
theorem get_combinedParts (hk : k ∈ keys) :
    Entries.get (Entries.ofParts (combinedParts es fs)) k =
      combineAt k (Entries.get es k) (Entries.get fs k) := by
  have hkeys : (Table.keys (combinedParts es fs)).Nodup := by
    rw [keys_combinedParts]
    exact nodup_keys
  rw [Entries.get_ofParts hkeys (List.mem_map.2 ⟨k, hk, rfl⟩), given_getD]

theorem keys_ofParts_combinedParts (es fs : Entries) :
    ∀ e ∈ Entries.ofParts (combinedParts es fs), e.1 ∈ keys := by
  intro e he
  rw [← keys_combinedParts es fs]
  exact Entries.keys_ofParts_subset _ (List.mem_map_of_mem he)

theorem objectEntries?_combine (ha : a.objectEntries? keys = some es)
    (hb : b.objectEntries? keys = some fs) :
    (combine a b).objectEntries? keys = some (Entries.ofParts (combinedParts es fs)) := by
  have hthen : units "then" ∉ Table.keys (Entries.ofParts (combinedParts es fs)) := by
    intro hmem
    obtain ⟨e, he, hname⟩ := List.mem_map.1 hmem
    have hkey := keys_ofParts_combinedParts es fs e he
    rw [hname] at hkey
    exact absurd hkey (by decide)
  rw [combine, entriesOf_eq ha, entriesOf_eq hb]
  exact Value.objectEntries?_mapping_of_notMem _ hthen

end Outline

/-! ## Parts of which the later one counts -/

open Validator LawfulValidator

theorem LawfulValidator.optional_later [Validator] [LawfulValidator] {α : Type} {s : Schema α}
    {a b : Value} {x y : Option α} (ha : safeParse (optional s) a = .ok x)
    (hb : safeParse (optional s) b = .ok y) :
    safeParse (optional s) (Outline.later a b) = .ok (y.or x) := by
  rcases optional_ok.1 hb with ⟨rfl, rfl⟩ | ⟨hne, z, -, rfl⟩
  · exact ha
  · rw [Outline.later_of_ne a hne]
    exact hb

namespace Definition

variable {r r' r'' : RawFields} {o p : Overrides} {nodeType : Option Text}

section

variable {α : Type} {compile : Value → Except Failure α} {f : FieldName} {x y : Option α}

theorem compileField_congr (h : r f = r' f) :
    compileField compile r nodeType f = compileField compile r' nodeType f := by
  rw [compileField, compileField, h]

theorem isSome_of_compileField (h : r f ≠ .undefined)
    (hx : compileField compile r nodeType f = .ok x) : x.isSome = true := by
  rw [compileField.eq_def] at hx
  split at hx
  · next hundefined => exact absurd hundefined h
  · rcases Outcome.map_eq_ok.1 (Outcome.inContext_eq_ok.1 hx) with ⟨z, -, rfl⟩
    rfl

theorem compileField_later (hx : compileField compile r nodeType f = .ok x)
    (hy : compileField compile r' nodeType f = .ok y)
    (hlater : r'' f = Outline.later (r f) (r' f)) :
    compileField compile r'' nodeType f = .ok (y.or x) := by
  by_cases h : r' f = .undefined
  · have hnone : y = none := by
      rw [compileField, h] at hy
      exact (Except.ok.inj hy).symm
    rw [h, Outline.later_undefined] at hlater
    rw [compileField_congr hlater, hx, hnone, Option.none_or]
  · rw [Outline.later_of_ne _ h] at hlater
    rw [compileField_congr hlater, hy, Option.or_of_isSome (isSome_of_compileField h hy)]

end

variable [PureHost] [Validator]

theorem compileFields_eq_ok : compileFields r nodeType = .ok o ↔
    compileField Spec.compile r nodeType .label = .ok o.label ∧
      compileField Spec.compile r nodeType .type = .ok o.type ∧
      compileField Selector.compile r nodeType .children = .ok o.children ∧
      compileField Spec.compile r nodeType .icon = .ok o.icon ∧
      compileField Spec.compile r nodeType .contentLines = .ok o.contentLines ∧
      compileField Spec.compile r nodeType .sourceLocation = .ok o.sourceLocation ∧
      compileField Spec.compile r nodeType .extra = .ok o.extra := by
  rw [compileFields]
  simp only [Outcome.bind_eq_ok]
  constructor
  · rintro ⟨label, hlabel, type, htype, children, hchildren, icon, hicon, lines, hlines,
      location, hlocation, extra, hextra, h⟩
    cases h
    exact ⟨hlabel, htype, hchildren, hicon, hlines, hlocation, hextra⟩
  · rintro ⟨hlabel, htype, hchildren, hicon, hlines, hlocation, hextra⟩
    exact ⟨_, hlabel, _, htype, _, hchildren, _, hicon, _, hlines, _, hlocation, _, hextra, rfl⟩

/-- Fields of which the later ones count are read as the overrides of the one and of the other. -/
theorem compileFields_later (ho : compileFields r nodeType = .ok o)
    (hp : compileFields r' nodeType = .ok p)
    (hlater : ∀ f, r'' f = Outline.later (r f) (r' f)) :
    compileFields r'' nodeType = .ok (o.andThen p) := by
  rcases compileFields_eq_ok.1 ho with ⟨hlabel, htype, hchildren, hicon, hlines, hlocation, hextra⟩
  obtain ⟨hlabel', htype', hchildren', hicon', hlines', hlocation', hextra'⟩ :=
    compileFields_eq_ok.1 hp
  exact compileFields_eq_ok.2 ⟨compileField_later hlabel hlabel' (hlater .label),
    compileField_later htype htype' (hlater .type),
    compileField_later hchildren hchildren' (hlater .children),
    compileField_later hicon hicon' (hlater .icon),
    compileField_later hlines hlines' (hlater .contentLines),
    compileField_later hlocation hlocation' (hlater .sourceLocation),
    compileField_later hextra hextra' (hlater .extra)⟩

end Definition

/-! ## Parts that are joined -/

/-- Whether a table holds what is read from the entries of a value, all but the one under the name
of the inherited object. -/
structure ReadFrom {α : Type} (read : Text → Value → Option α) (v : Value) (t : Table α) :
    Prop where
  exists_mem : ∀ e ∈ Outline.entriesOf [] v, e.1 ≠ Value.parentName →
    ∃ x, read e.1 e.2 = some x ∧ (e.1, x) ∈ t
  last? : ∀ k, t.last? k =
    if k = Value.parentName then none else (Table.last? (Outline.entriesOf [] v) k).bind (read k)

namespace ReadFrom

variable {α β : Type} {read : Text → Value → Option α} {a b v : Value} {s t u : Table α}

/-- What is read from joined entries is what is read from the one and then from the other. -/
theorem joined (hs : ReadFrom read a s) (ht : ReadFrom read b t)
    (hu : ReadFrom read (Outline.joined a b) u)
    (hentries : Outline.entriesOf [] (Outline.joined a b) =
      Table.ofList (Outline.entriesOf [] a ++ Outline.entriesOf [] b)) (k : Text) :
    u.last? k = (s ++ t).last? k := by
  rw [hu.last?, Table.last?_append, hs.last?, ht.last?, hentries, Table.last?_ofList,
    Table.last?_append]
  by_cases hk : k = Value.parentName
  · simp [hk]
  · simp only [if_neg hk]
    cases hlater : Table.last? (Outline.entriesOf [] b) k with
    | none => simp
    | some v =>
      -- A later entry that is there is read, so no earlier one shows through.
      rcases ht.exists_mem _ (Table.mem_of_last? hlater) hk with ⟨x, hx, -⟩
      simp [hx]

/-- What is read may be translated entry by entry. -/
theorem translated {translate : Text → α → Option β} {r : Table β} (ht : ReadFrom read v t)
    (hr : List.Forall₂ (fun e f => f.1 = e.1 ∧ translate e.1 e.2 = some f.2) t r) :
    ReadFrom (fun k v => (read k v).bind (translate k)) v r where
  exists_mem e he hne := by
    rcases ht.exists_mem e he hne with ⟨x, hx, hmem⟩
    rcases exists_of_mem_forall₂ hr.flip hmem with ⟨f, hf, hname, htranslate⟩
    refine ⟨f.2, ?_, ?_⟩
    · rw [hx, Option.bind_some, htranslate]
    · rwa [← hname]
  last? k := by
    rw [Table.last?_of_forall₂ hr, ht.last?]
    by_cases hk : k = Value.parentName
    · simp [hk]
    · simp [hk, Option.bind_assoc]

end ReadFrom

namespace LawfulValidator

variable [Validator] [LawfulValidator] {α : Type} {s : Schema α} {a b v : Value}
  {x y : Option (Table α)}

/-- A record that may be missing is read entry by entry. -/
theorem exists_of_optional_record (h : safeParse (optional (record text s)) v = .ok x) :
    ∃ all, List.Forall₂ (fun e f => f.1 = e.1 ∧ safeParse s e.2 = .ok f.2)
        (Outline.entriesOf [] v) all ∧
      all.filter (fun e => e.1 != Value.parentName) = x.getD [] := by
  rcases optional_ok.1 h with ⟨rfl, rfl⟩ | ⟨-, as, has, rfl⟩
  · exact ⟨[], .nil, rfl⟩
  · obtain ⟨es, all, hes, hall, rfl⟩ := record_ok.1 has
    rw [Outline.entriesOf_eq hes]
    exact ⟨all, hall.imp fun e f hf => ⟨(Value.text.inj (text_ok.1 hf.1)).symm, hf.2⟩, rfl⟩

theorem readFrom_record (h : safeParse (optional (record text s)) v = .ok x) :
    ReadFrom (fun _ v => (safeParse s v).toOption) v (x.getD []) := by
  obtain ⟨all, hall, hx⟩ := exists_of_optional_record h
  have hread : List.Forall₂ (fun e f => f.1 = e.1 ∧ (safeParse s e.2).toOption = some f.2)
      (Outline.entriesOf [] v) all := hall.imp fun e f hf => ⟨hf.1, Outcome.toOption_eq_some.2 hf.2⟩
  rw [← hx]
  constructor
  · intro e he hne
    obtain ⟨f, hf, hname, hcheck⟩ := exists_of_mem_forall₂ hread.flip he
    refine ⟨f.2, hcheck, List.mem_filter.2 ⟨?_, bne_iff_ne.2 hne⟩⟩
    rwa [← hname]
  · intro k
    rw [Table.last?_filter_ne, Table.last?_of_forall₂ (g := fun _ v => (safeParse s v).toOption)
      hread]

theorem exists_of_mem_entriesOf (h : safeParse (optional (record text s)) v = .ok x)
    {e : Text × Value} (he : e ∈ Outline.entriesOf [] v) : ∃ z, safeParse s e.2 = .ok z := by
  obtain ⟨all, hall, -⟩ := exists_of_optional_record h
  obtain ⟨f, -, -, hf⟩ := exists_of_mem_forall₂ hall.flip he
  exact ⟨f.2, hf⟩

variable (hs : ∀ f source frame z, safeParse s (.function f source frame) ≠ .ok z)
  (ha : safeParse (optional (record text s)) a = .ok x)
  (hb : safeParse (optional (record text s)) b = .ok y)

include ha hb

theorem exists_of_mem_append {e : Text × Value}
    (he : e ∈ Outline.entriesOf [] a ++ Outline.entriesOf [] b) : ∃ z, safeParse s e.2 = .ok z := by
  rcases List.mem_append.1 he with he | he
  · exact exists_of_mem_entriesOf ha he
  · exact exists_of_mem_entriesOf hb he

include hs

theorem forall_mem_append_ne_function : ∀ e ∈ Outline.entriesOf [] a ++ Outline.entriesOf [] b,
    ∀ f source frame, e.2 ≠ .function f source frame := by
  intro e he f source frame hfunction
  obtain ⟨z, hz⟩ := exists_of_mem_append ha hb he
  exact hs f source frame z (hfunction ▸ hz)

/-- Joined records are read if both are. -/
theorem exists_record_joined :
    ∃ z, safeParse (optional (record text s)) (Outline.joined a b) = .ok z := by
  have hnone := forall_mem_append_ne_function hs ha hb
  rw [Outline.joined.eq_def]
  split
  · exact ⟨none, optional_undefined _⟩
  · obtain ⟨t, ht⟩ := exists_record (fun e he => hnone e (Table.mem_of_mem_ofList he))
      fun e he => exists_of_mem_append ha hb (Table.mem_of_mem_ofList he)
    exact ⟨some t, optional_ok.2 (.inr ⟨nofun, t, ht, rfl⟩)⟩

end LawfulValidator

/-! ## Overrides -/

namespace Definition

variable [PureHost] [Validator]

/-- The overrides that a serialized form for a type is read as. -/
def overridesOf? (nodeType : Text) (raw : Value) : Option Overrides :=
  (safeParse Outline.overridesSchema raw).toOption.bind fun r =>
    (compileFields r (some nodeType)).toOption

variable [LawfulValidator] {a b v : Value} {x : Option (Table RawFields)} {os ps : Table Overrides}

theorem readFrom_overrides
    (hx : safeParse (optional (record text Outline.overridesSchema)) v = .ok x)
    (hos : compileOverrides (x.getD []) = .ok os) : ReadFrom overridesOf? v os :=
  (readFrom_record hx).translated
    ((compileOverrides_eq_ok.1 hos).imp fun _ _ hf => ⟨hf.1, Outcome.toOption_eq_some.2 hf.2⟩)

/-- Joined overrides are read if both are. -/
theorem exists_compileOverrides_joined {z : Option (Table RawFields)}
    (hos : ReadFrom overridesOf? a os) (hps : ReadFrom overridesOf? b ps)
    (hz : safeParse (optional (record text Outline.overridesSchema)) (Outline.joined a b) = .ok z)
    (hentries : Outline.entriesOf [] (Outline.joined a b) =
      Table.ofList (Outline.entriesOf [] a ++ Outline.entriesOf [] b)) :
    ∃ qs, compileOverrides (z.getD []) = .ok qs := by
  obtain ⟨all, hall, hz⟩ := exists_of_optional_record hz
  have hcompile : ∀ e ∈ z.getD [], ∃ o : Text × Overrides,
      o.1 = e.1 ∧ compileFields e.2 (some e.1) = .ok o.2 := by
    intro e he
    rw [← hz, List.mem_filter, bne_iff_ne] at he
    obtain ⟨f, hf, hname, hcheck⟩ := exists_of_mem_forall₂ hall he.1
    rw [hentries] at hf
    have hread : ∃ o, overridesOf? f.1 f.2 = some o := by
      rcases List.mem_append.1 (Table.mem_of_mem_ofList hf) with hf | hf
      · obtain ⟨o, ho, -⟩ := hos.exists_mem f hf (hname ▸ he.2)
        exact ⟨o, ho⟩
      · obtain ⟨o, ho, -⟩ := hps.exists_mem f hf (hname ▸ he.2)
        exact ⟨o, ho⟩
    obtain ⟨o, ho⟩ := hread
    rw [overridesOf?, hcheck] at ho
    exact ⟨(e.1, o), rfl, hname ▸ Outcome.toOption_eq_some.1 ho⟩
  obtain ⟨qs, hqs⟩ := exists_forall₂ hcompile
  exact ⟨qs, compileOverrides_eq_ok.2 hqs⟩

end Definition

/-! ## Whole definitions -/

namespace Outline

variable {a b : Value} {o p : Outline}

theorem combineAt_key (f : FieldName) (a b : Value) : combineAt f.key a b = later a b := by
  cases f <;> rfl

theorem key_mem_keys (f : FieldName) : f.key ∈ keys := by
  cases f <;> decide

variable [Validator] [LawfulValidator]

theorem text_ne_ok_function (f : Nat) (source : Text) (frame : Frame Value) (t : Text) :
    safeParse text (.function f source frame) ≠ .ok t :=
  fun h => nomatch text_ok.1 h

theorem overridesSchema_ne_ok_function (f : Nat) (source : Text) (frame : Frame Value)
    (r : RawFields) : safeParse overridesSchema (.function f source frame) ≠ .ok r := by
  intro h
  obtain ⟨es, hes, -⟩ := overridesSchema_ok.1 h
  rw [Value.objectEntries?.eq_def] at hes
  split at hes <;> cases hes

/-- A combination is read as the later field specifications, icon packs and ignored types, and what
is read from the joined icons and overrides. -/
theorem safeParse_combine {icons : Option (Table Text)} {packs : Option (List IconPack)}
    {types : Option (Table RawFields)} {ignored : Option (List Text)}
    (ha : a.objectEntries? keys = some es) (hb : b.objectEntries? keys = some fs)
    (hicons : safeParse (optional (record text text))
      (joined (Entries.get es iconsKey) (Entries.get fs iconsKey)) = .ok icons)
    (hpacks : safeParse (optional (array IconPack.schema))
      (later (Entries.get es iconPacksKey) (Entries.get fs iconPacksKey)) = .ok packs)
    (htypes : safeParse (optional (record text overridesSchema))
      (joined (Entries.get es typeOverridesKey) (Entries.get fs typeOverridesKey)) = .ok types)
    (hignored : safeParse (optional (array text))
      (later (Entries.get es ignoreTypesKey) (Entries.get fs ignoreTypesKey)) = .ok ignored) :
    safeParse schema (combine a b) = .ok {
      fields := fun f => later (Entries.get es f.key) (Entries.get fs f.key)
      icons
      iconPacks := packs
      typeOverrides := types
      ignoreTypes := ignored } := by
  refine schema_ok.2 ⟨_, objectEntries?_combine ha hb, keys_ofParts_combinedParts es fs,
    fun f => ?_, ?_, ?_, ?_, ?_⟩
  · rw [get_combinedParts (key_mem_keys f), combineAt_key]
  · rw [get_combinedParts (by decide)]
    exact hicons
  · rw [get_combinedParts (by decide)]
    exact hpacks
  · rw [get_combinedParts (by decide)]
    exact htypes
  · rw [get_combinedParts (by decide)]
    exact hignored

end Outline

namespace Changes

variable [PureHost] [Validator] [LawfulValidator] {a b : Value} {c c' : Changes}

/-- The combination of two serialized definitions asks for the changes of the one and then of the
other. -/
theorem exists_read_combine (ha : read a = .ok c) (hb : read b = .ok c') :
    ∃ e, read (Outline.combine a b) = .ok e ∧ e.Agree (c.andThen c') := by
  obtain ⟨o, ho, hfields, htypes, hicons, hpacks, hignored⟩ := read_eq_ok.1 ha
  obtain ⟨p, hp, hfields', htypes', hicons', hpacks', hignored'⟩ := read_eq_ok.1 hb
  obtain ⟨es, hes, -, hlook, icon, pack, type, ignored⟩ := Outline.schema_ok.1 ho
  obtain ⟨fs, hfs, -, hlook', icon', pack', type', ignored'⟩ := Outline.schema_ok.1 hp
  have hiconEntries :=
    Outline.entriesOf_joined (forall_mem_append_ne_function Outline.text_ne_ok_function icon icon')
  have htypeEntries := Outline.entriesOf_joined
    (forall_mem_append_ne_function Outline.overridesSchema_ne_ok_function type type')
  obtain ⟨icons, hjoined⟩ := exists_record_joined Outline.text_ne_ok_function icon icon'
  obtain ⟨types, htypesJoined⟩ :=
    exists_record_joined Outline.overridesSchema_ne_ok_function type type'
  have hoverrides := Definition.readFrom_overrides type htypes
  have hoverrides' := Definition.readFrom_overrides type' htypes'
  obtain ⟨overrides, hcompiled⟩ :=
    Definition.exists_compileOverrides_joined hoverrides hoverrides' htypesJoined htypeEntries
  have hread := Outline.safeParse_combine hes hfs hjoined (optional_later pack pack') htypesJoined
    (optional_later ignored ignored')
  have hall : Definition.compileFields
      (fun f => Outline.later (Entries.get es f.key) (Entries.get fs f.key)) none =
        .ok (c.fields.andThen c'.fields) :=
    Definition.compileFields_later hfields hfields' fun f => by rw [hlook, hlook']
  refine ⟨⟨_, _, _, overrides, _⟩,
    read_eq_ok.2 ⟨_, hread, hall, hcompiled, rfl, rfl, rfl⟩, rfl, ?_, ?_, ?_, ?_⟩
  · intro name
    rw [andThen, ← hicons, ← hicons']
    exact (readFrom_record icon).joined (readFrom_record icon') (readFrom_record hjoined)
      hiconEntries name
  · rw [andThen, ← hpacks, ← hpacks']
  · exact hoverrides.joined hoverrides' (Definition.readFrom_overrides htypesJoined hcompiled)
      htypeEntries
  · rw [andThen, ← hignored, ← hignored']

end Changes

namespace Definition

section Validator

variable [PureHost] [Validator] [LawfulValidator]

theorem merge_empty (d : Definition) : d.merge (.mapping []) = .ok d := by
  have hread : safeParse Outline.schema (.mapping []) =
      .ok ⟨fun _ => .undefined, none, none, none, none⟩ :=
    Outline.schema_ok.2 ⟨[], rfl, nofun, fun _ => rfl, optional_undefined _, optional_undefined _,
      optional_undefined _, optional_undefined _⟩
  exact merge_eq_ok.2 ⟨_, {}, [], hread, rfl, rfl, rfl⟩

/-- Merging one serialized definition and then another one is merging their combination. Hence
merging an empty one changes nothing, and neither does merging one a second time. -/
theorem merge_merge_equivalent (d : Definition) :
    (∀ a b d₁ d₂, d.merge a = .ok d₁ → d₁.merge b = .ok d₂ →
      ∃ e, d.merge (Outline.combine a b) = .ok e ∧ e.Equivalent d₂) ∧
    d.merge (.mapping []) = .ok d ∧
    ∀ a d₁, d.merge a = .ok d₁ → ∃ e, d₁.merge a = .ok e ∧ e.Equivalent d₁ := by
  refine ⟨?_, merge_empty d, ?_⟩
  · intro a b d₁ d₂ ha hb
    rcases Changes.merge_eq_ok.1 ha with ⟨c, hc, rfl⟩
    rcases Changes.merge_eq_ok.1 hb with ⟨c', hc', rfl⟩
    rcases Changes.exists_read_combine hc hc' with ⟨e, he, hagree⟩
    refine ⟨_, Changes.merge_eq_ok.2 ⟨e, he, rfl⟩, ?_⟩
    rw [← Changes.apply_andThen]
    exact hagree.apply d
  · intro a d₁ ha
    rcases Changes.merge_eq_ok.1 ha with ⟨c, hc, rfl⟩
    refine ⟨_, Changes.merge_eq_ok.2 ⟨c, hc, rfl⟩, ?_⟩
    rw [← Changes.apply_andThen]
    exact (Changes.agree_andThen_self c).apply d

end Validator

/-- A serialized definition that sets the labels of all nodes, and the icon and labels of notes. -/
def serializedNote (label icon override : String) : Value :=
  .mapping [(FieldName.label.key, .ofString label),
    (Outline.iconsKey, .mapping [(units "note", .ofString icon)]),
    (Outline.typeOverridesKey, .mapping [(units "note",
      .mapping [(FieldName.label.key, .ofString override)])])]

open scoped SampleHost StandardValidator

/-- Two layers over the default definition, and the second one once more. -/
theorem exists_merge_merge_note :
    ∃ d₁ d₂, default.merge (serializedNote "name" "✎" "title") = .ok d₁ ∧
      d₁.merge (serializedNote "text" "♪" "words") = .ok d₂ ∧
      (∃ e, default.merge (Outline.combine (serializedNote "name" "✎" "title")
        (serializedNote "text" "♪" "words")) = .ok e ∧ e.Equivalent d₂) ∧
      ∃ e, d₂.merge (serializedNote "text" "♪" "words") = .ok e ∧ e.Equivalent d₂ :=
  ⟨_, _, rfl, rfl, (merge_merge_equivalent default).1 _ _ _ _ rfl rfl,
    (merge_merge_equivalent _).2.2 _ _ rfl⟩

end Definition

end TreeExtraction
