import TreeExtraction.Proofs.Definition.Changes
import TreeExtraction.Proofs.Node.Reading
import TreeExtraction.Proofs.Schema.Standard
import TreeExtraction.Value.SampleHost

/-! # Overrides are local

An override for a type makes a difference only to conversions that come upon a source of this base
type. The base type of a source is found by the fields of the definition alone, overrides are looked
up by it and not by the type that an override gives, and the children of a node are converted by the
whole definition. So all other sources are read as before, and conversions that come upon none but
them are the same, with the same result or failure and the same warnings.
-/

namespace TreeExtraction.Definition

open Validator LawfulValidator

/-! ## The sources that a conversion comes upon -/

/-- The sources that are come upon when some sources are converted one after the other. A conversion
that fails is the last one. -/
def visitedAll (conversion : Value → Run (Option Node)) (visited : Value → List Value) :
    List Value → List Value
  | [] => []
  | c :: cs =>
    visited c ++
      match (conversion c).outcome with
      | .ok _ => visitedAll conversion visited cs
      | .error _ => []

/-- Sources are converted alike one after the other if each is that is come upon. -/
theorem collect_congr {conversion conversion' : Value → Run (Option Node)}
    {visited : Value → List Value} {P : Value → Prop}
    (hsame : ∀ c, (∀ v ∈ visited c, P v) → conversion' c = conversion c) {sources : List Value}
    (h : ∀ v ∈ visitedAll conversion visited sources, P v) :
    collect conversion' sources = collect conversion sources := by
  induction sources with
  | nil => rfl
  | cons c cs ih =>
    rw [visitedAll] at h
    have hfirst : conversion' c = conversion c :=
      hsame c fun v hv => h v (List.mem_append_left _ hv)
    rw [collect, collect, hfirst]
    apply Run.bind_congr
    intro first hok
    -- Only if the first conversion succeeds are the other sources come upon at all.
    rw [ih fun v hv => h v (List.mem_append_right _ (by rwa [hok]))]

section Host

variable [PureHost]

/-- The sources that a conversion comes upon, in order. -/
def visitedWithin (d : Definition) : (limit : Nat) → Value → List Value
  | 0, _ => []
  | limit + 1, source =>
    source ::
      match (d.readNode source).outcome with
      | .ok (some (_, sources)) =>
        visitedAll (d.convertWithin limit) (d.visitedWithin limit) sources
      | _ => []

theorem mem_visitedWithin_self (d : Definition) (limit : Nat) (source : Value) :
    source ∈ d.visitedWithin (limit + 1) source := by
  simp [visitedWithin]

theorem mem_visitedWithin_of_mem {d : Definition} {limit : Nat} {source v : Value} {head : Head}
    {sources : List Value} (h : (d.readNode source).outcome = .ok (some (head, sources)))
    (hv : v ∈ visitedAll (d.convertWithin limit) (d.visitedWithin limit) sources) :
    v ∈ d.visitedWithin (limit + 1) source := by
  rw [visitedWithin, h]
  exact List.mem_cons_of_mem _ hv

/-! ## Definitions that differ in one type -/

/-- Whether two definitions differ at most in the overrides for a type. -/
structure SameBut (t : Text) (d d' : Definition) : Prop where
  agreeOn : ∀ base, base ≠ some t → AgreeOn base d d'
  ignoreTypes : d'.ignoreTypes = d.ignoreTypes

variable {t : Text} {d d' : Definition} {source : Value} {limit : Nat}

/-- A source of another base type is read alike. -/
theorem SameBut.readNode (h : SameBut t d d')
    (hsource : (d.baseType source).outcome ≠ .ok (some t)) :
    d'.readNode source = d.readNode source := by
  rw [Definition.readNode, Definition.readNode, (h.agreeOn none (by simp)).foundType]
  apply Run.bind_congr
  intro found hfound
  have hagree : AgreeOn found.name? d d' :=
    h.agreeOn _ fun heq => hsource (heq ▸ baseType_of_foundType hfound)
  dsimp only
  rw [isIgnored, h.ignoreTypes, ← isIgnored, hagree.readHead, hagree.effectiveFields,
    hagree.childSources]

/-- Definitions that differ in the overrides for a type convert a source alike, unless the
conversion comes upon a source of this base type. -/
theorem SameBut.convertWithin (h : SameBut t d d')
    (hvisited : ∀ v ∈ d.visitedWithin limit source, (d.baseType v).outcome ≠ .ok (some t)) :
    d'.convertWithin limit source = d.convertWithin limit source := by
  induction limit generalizing source with
  | zero => rfl
  | succ limit ih =>
    have hread := h.readNode (hvisited source (mem_visitedWithin_self d limit source))
    rw [convertWithin_succ, convertWithin_succ, convertBy, convertBy, hread]
    apply Run.bind_congr
    rintro (_ | ⟨head, sources⟩) hok
    · rfl
    · have hcollect := collect_congr (fun c hc => ih hc)
        fun v hv => hvisited v (mem_visitedWithin_of_mem hok hv)
      simp only [hcollect]

/-! ## Merging an override -/

/-- The serialized definition of an override for a type. -/
def serializedOverride (t : Text) (raw : Value) : Value :=
  .mapping [(Outline.typeOverridesKey, .mapping [(t, raw)])]

variable [Validator] [LawfulValidator]

/-- The changes of an override for a type are overrides for this type and nothing else. -/
theorem of_read_serializedOverride {raw : Value} {c : Changes}
    (h : Changes.read (serializedOverride t raw) = .ok c) :
    c.fields = {} ∧ c.icons = [] ∧ c.iconPacks = none ∧ c.ignoreTypes = none ∧
      ∀ e ∈ c.typeOverrides, e.1 = t := by
  obtain ⟨o, hread, hfields, hoverrides, hicons, hpacks, hignored⟩ := Changes.read_eq_ok.1 h
  obtain ⟨es, hentries, -, hlook, icons, packs, types, ignored⟩ := Outline.schema_ok.1 hread
  obtain rfl := Value.eq_of_objectEntries?_mapping hentries
  have hnone : o.fields = fun _ => .undefined := by
    funext f
    rw [hlook f]
    cases f <;> rfl
  have hnoIcons := Except.ok.inj ((optional_undefined _).symm.trans icons)
  have hnoPacks := Except.ok.inj ((optional_undefined _).symm.trans packs)
  have hnoIgnored := Except.ok.inj ((optional_undefined _).symm.trans ignored)
  rw [hnone] at hfields
  refine ⟨(Except.ok.inj hfields).symm, ?_, ?_, ?_, fun e he => ?_⟩
  · rw [← hicons, ← hnoIcons, Option.getD_none]
  · rw [← hpacks, ← hnoPacks]
  · rw [← hignored, ← hnoIgnored]
  · obtain ⟨f, hf, hname, -⟩ :=
      exists_of_mem_forall₂ (compileOverrides_eq_ok.1 hoverrides) he
    cases ho : o.typeOverrides with
    | none =>
      rw [ho] at hf
      cases hf
    | some ts =>
      rw [ho] at hf
      obtain ⟨items, hitems, hrecord⟩ := exists_of_record (of_optional types ts ho)
      obtain rfl := Value.eq_of_objectEntries?_mapping hitems
      obtain ⟨-, item, hitem, hkey, -⟩ := hrecord f hf
      rw [hname, ← Value.text.inj (text_ok.1 hkey)]
      exact congrArg Prod.fst (List.mem_singleton.1 hitem)

/-- Merging an override for a type changes nothing but the overrides for this type. -/
theorem sameBut_merge {raw : Value} (h : d.merge (serializedOverride t raw) = .ok d') :
    SameBut t d d' := by
  rcases Changes.merge_eq_ok.1 h with ⟨c, hread, rfl⟩
  rcases of_read_serializedOverride hread with ⟨hfields, hicons, hpacks, hignored, htypes⟩
  refine ⟨fun base hbase => ⟨?_, ?_, ?_, ?_⟩, ?_⟩
  · rw [Changes.apply, hfields]
    rfl
  · rw [Changes.apply, hicons]
    rfl
  · rw [Changes.apply, hpacks]
    rfl
  · cases base with
    | none => rfl
    | some u =>
      have hnone : Table.last? c.typeOverrides u = none := by
        rw [Option.eq_none_iff_forall_ne_some]
        intro o ho
        exact hbase (congrArg some (htypes _ (Table.mem_of_last? ho)))
      rw [overridesFor, overridesFor, Option.bind_some, Option.bind_some, Changes.apply,
        Table.get?_foldl_insert, hnone, Option.none_or]
  · rw [Changes.apply, hignored]
    rfl

/-- Merging an override for a type makes no difference to a conversion, to whatever depth it is
limited, that comes upon no source of this base type: it has the same outcome, be it a tree, none or
a failure with its context, and leaves the same warnings. A whole conversion is limited by the depth
of its source and a margin. -/
theorem convertWithin_merge_override {raw : Value}
    (h : d.merge (serializedOverride t raw) = .ok d') (limit : Nat) (source : Value)
    (hvisited : ∀ v ∈ d.visitedWithin limit source, (d.baseType v).outcome ≠ .ok (some t)) :
    d'.convertWithin limit source = d.convertWithin limit source :=
  (sameBut_merge h).convertWithin hvisited

end Host

open scoped SampleHost StandardValidator

/-- An override for notes, and a list of a text that is converted with and without it. -/
theorem convert_merge_override_note :
    ∃ d' source, source = plainSource "list" [plainSource "text" []] ∧
      default.merge (serializedOverride (units "note")
        (.mapping [(FieldName.label.key, .ofString "title")])) = .ok d' ∧
      (∀ v ∈ default.visitedWithin (source.depth + depthMargin) source,
        (default.baseType v).outcome ≠ .ok (some (units "note"))) ∧
      d'.convert source = default.convert source := by
  have hmerge : default.merge (serializedOverride (units "note")
      (.mapping [(FieldName.label.key, .ofString "title")])) = .ok { default with
        typeOverrides := [(units "note", { label := some (.path (units "title")) })] } := rfl
  have hlist : (default.baseType (plainSource "list" [plainSource "text" []])).outcome =
    .ok (some (units "list")) := rfl
  have htext : (default.baseType (plainSource "text" [])).outcome =
    .ok (some (units "text")) := rfl
  have hvisited : ∀ v ∈ [plainSource "list" [plainSource "text" []], plainSource "text" []],
      (default.baseType v).outcome ≠ .ok (some (units "note")) := by
    rw [List.forall_mem_cons, List.forall_mem_singleton, hlist, htext]
    exact ⟨fun h => absurd (Except.ok.inj h) (by decide),
      fun h => absurd (Except.ok.inj h) (by decide)⟩
  exact ⟨_, _, rfl, hmerge, hvisited, convertWithin_merge_override hmerge _ _ hvisited⟩

end TreeExtraction.Definition
