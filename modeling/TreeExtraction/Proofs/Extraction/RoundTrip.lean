import TreeExtraction.Extraction.Serialized
import TreeExtraction.Proofs.Filter.RoundTrip
import TreeExtraction.Proofs.Schema.Standard
import TreeExtraction.Proofs.Transform.RoundTrip
import TreeExtraction.Value.SampleHost

/-! # Written specifications are read back

A specification that has been read, holds no function of the host and keeps a stage if it is
structured is read from its serialized form as itself. A structured specification all of whose
stages are left out is written as the empty mapping, which is read as a literal.
-/

namespace TreeExtraction

/-! ## Collection mappings -/

namespace MapSpec

/-- The entries of the serialized form. -/
def parts (m : MapSpec) : Table (Option Value) :=
  [(templateKey, some m.template), (itemNameKey, m.itemName.map .text)]

/-- What reading makes sure of: there is a template, and the item name is an identifier. -/
def IsReadable (m : MapSpec) : Prop :=
  m.template ≠ .undefined ∧ ∀ name ∈ m.itemName, Text.isIdentifier name = true

variable {m : MapSpec}

theorem serialize_eq_ofParts (m : MapSpec) : serialize m = .mapping (Entries.ofParts m.parts) := by
  rcases m with ⟨template, itemName⟩
  cases itemName <;> rfl

theorem isNull_serialize (m : MapSpec) : (serialize m).isNull = false := by
  rw [serialize_eq_ofParts]
  rfl

variable [PureHost]

theorem isReadable_of_compile {raw : Value} (h : compile raw = .ok m) : m.IsReadable := by
  rw [compile.eq_def] at h
  split at h
  · split at h
    · split at h
      · cases h
      · next htemplate =>
        cases h
        exact ⟨htemplate, by simp⟩
      · next htemplate =>
        split at h
        · next hname =>
          cases h
          exact ⟨htemplate, by simpa using hname⟩
        · cases h
      · rcases Outcome.bind_eq_ok.1 h with ⟨t, -, h⟩
        cases h
    · cases h
  · cases h

theorem compile_serialize (h : m.IsReadable) : compile (serialize m) = .ok m := by
  have hkeys : (Table.keys m.parts).Nodup := by
    change [templateKey, itemNameKey].Nodup
    decide
  have htemplate : Entries.get (Entries.ofParts m.parts) templateKey = m.template :=
    Entries.get_ofParts hkeys List.mem_cons_self
  have hname : Entries.get (Entries.ofParts m.parts) itemNameKey =
      (m.itemName.map Value.text).getD .undefined :=
    Entries.get_ofParts hkeys (by simp [parts])
  have hknown : ((Entries.ofParts m.parts).map (·.1)).filter
      (fun k => k != templateKey && k != itemNameKey) = [] := by
    rw [List.filter_eq_nil_iff]
    intro k hk
    have := Entries.keys_ofParts_subset m.parts hk
    simp [parts] at this
    rcases this with rfl | rfl <;> simp
  rcases m with ⟨template, itemName⟩
  rw [serialize_eq_ofParts, compile, hknown, htemplate, hname]
  cases itemName with
  | none => simp [h.1]
  | some name => simp [h.1, h.2 name rfl]

end MapSpec

/-! ## Stages -/

namespace Stage

theorem mem_all (s : Stage) : s ∈ all := by
  cases s <;> decide

theorem ofText?_text (s : Stage) : ofText? s.text = some s := by
  cases s <;> decide

end Stage

namespace Spec

variable {stage : Stage} {raw : Value}

theorem of_compilePath {p : Option Text} (h : compilePath stage raw = .ok p) :
    ∀ t ∈ p, ∃ ss, Path.read t = .ok ss := by
  rw [compilePath.eq_def] at h
  split at h
  · cases h
    exact fun _ ht => nomatch ht
  · cases h
    exact fun _ ht => nomatch ht
  · next t =>
    rcases Outcome.bind_eq_ok.1 h with ⟨ss, hss, h⟩
    cases h
    rintro _ ⟨⟩
    exact ⟨ss, hss⟩
  · cases h

theorem compilePath_written (stage : Stage) {p : Option Text}
    (h : ∀ t ∈ p, ∃ ss, Path.read t = .ok ss) :
    compilePath stage ((p.map Value.text).getD .undefined) = .ok p := by
  cases p with
  | none => rfl
  | some t =>
    rcases h t rfl with ⟨ss, hss⟩
    rw [Option.map_some, Option.getD_some, compilePath, hss]
    rfl

theorem of_compileDefault {d : Option Value} (h : compileDefault raw = d) :
    ∀ v ∈ d, v ≠ .undefined := by
  subst h
  cases raw <;> rintro _ ⟨⟩ <;> exact Value.noConfusion

theorem compileDefault_written {d : Option Value} (h : ∀ v ∈ d, v ≠ .undefined) :
    compileDefault (d.getD .undefined) = d := by
  cases d with
  | none => rfl
  | some v =>
    have := h v rfl
    cases v <;> first | rfl | exact absurd rfl this

variable {α : Type} {compile : Value → Except Failure α}

theorem of_compileStage {a : Option α} (h : compileStage compile raw = .ok a) :
    ∀ x ∈ a, compile raw = .ok x := by
  rw [compileStage] at h
  split at h
  · cases h
    exact fun _ hx => nomatch hx
  · rcases Outcome.map_eq_ok.1 h with ⟨y, hy, rfl⟩
    rintro _ ⟨⟩
    exact hy

theorem compileStage_written {serialize : α → Value} {a : Option α}
    (hnull : ∀ x, (serialize x).isNull = false) (h : ∀ x ∈ a, compile (serialize x) = .ok x) :
    compileStage compile ((a.map serialize).getD .undefined) = .ok a := by
  cases a with
  | none => rfl
  | some x =>
    rw [Option.map_some, Option.getD_some, compileStage, hnull x, h x rfl]
    rfl

end Spec

/-- Whether a transform is a built-in one. -/
def Transform.isBuiltin : Transform → Bool
  | .builtin _ => true
  | .custom _ => false

namespace Stages

/-- The serialized form of each stage, with a given one for the transform. -/
def part (s : Stages) (transform : Option Value) : Stage → Option Value
  | .path => s.path.map .text
  | .fallback => s.fallback.map .text
  | .default => s.default
  | .transform => transform
  | .filter => s.filter.map Predicate.serialize
  | .map => s.map.map MapSpec.serialize

/-- The entries of the serialized form. -/
def parts (s : Stages) (transform : Option Value) : Table (Option Value) :=
  Stage.all.map fun stage => (stage.text, s.part transform stage)

variable {s : Stages} {transform : Option Value}

theorem keys_parts (s : Stages) (transform : Option Value) :
    Table.keys (s.parts transform) = Stage.all.map Stage.text := rfl

theorem get_parts (s : Stages) (transform : Option Value) (stage : Stage) :
    Entries.get (Entries.ofParts (s.parts transform)) stage.text =
      (s.part transform stage).getD .undefined := by
  have hkeys : (Table.keys (s.parts transform)).Nodup := by
    rw [keys_parts]
    decide
  exact Entries.get_ofParts hkeys (List.mem_map.2 ⟨stage, stage.mem_all, rfl⟩)

theorem isSome_ofText?_of_mem {e : Text × Value} (he : e ∈ Entries.ofParts (s.parts transform)) :
    (Stage.ofText? e.1).isSome = true := by
  have hkey := Entries.keys_ofParts_subset _ (List.mem_map_of_mem he)
  rw [keys_parts] at hkey
  obtain ⟨stage, -, hstage⟩ := List.mem_map.1 hkey
  rw [← hstage, stage.ofText?_text]
  rfl

section

variable [Validator]

/-- What reading makes sure of: each stage is read from its serialized form. -/
structure IsReadable (s : Stages) : Prop where
  path : ∀ t ∈ s.path, ∃ ss, Path.read t = .ok ss
  fallback : ∀ t ∈ s.fallback, ∃ ss, Path.read t = .ok ss
  default : ∀ v ∈ s.default, v ≠ .undefined
  transform : ∀ b, s.transform = some (.builtin b) →
    Transform.compile (Transform.serializeBuiltin b) = .ok (.builtin b)
  filter : ∀ p ∈ s.filter, p.ReadsBack
  map : ∀ m ∈ s.map, m.IsReadable

variable [PureHost]

theorem isReadable_of_compileStages [LawfulValidator] {es : Entries} (hes : es.isWellFormed = true)
    (h : Spec.compileStages es = .ok s) : s.IsReadable := by
  rw [Spec.compileStages] at h
  split at h
  · rcases Outcome.bind_eq_ok.1 h with ⟨path, hpath, h⟩
    rcases Outcome.bind_eq_ok.1 h with ⟨fallback, hfallback, h⟩
    rcases Outcome.bind_eq_ok.1 h with ⟨transform, htransform, h⟩
    rcases Outcome.bind_eq_ok.1 h with ⟨filter, hfilter, h⟩
    rcases Outcome.bind_eq_ok.1 h with ⟨map, hmap, h⟩
    cases h
    exact {
      path := Spec.of_compilePath hpath
      fallback := Spec.of_compilePath hfallback
      default := Spec.of_compileDefault rfl
      transform := fun b hb =>
        Transform.compile_serializeBuiltin (Spec.of_compileStage htransform _ hb)
      filter := fun p hp => Predicate.readsBack_of_compile _ (Entries.get_isWellFormed hes _) p
        (Spec.of_compileStage hfilter p hp)
      map := fun m hm => MapSpec.isReadable_of_compile (Spec.of_compileStage hmap m hm) }
  · cases h

/-- Stages are read from the entries as which they are written. -/
theorem compileStages_parts (h : s.IsReadable)
    (htransform : Spec.compileStage Transform.compile (transform.getD .undefined) =
      .ok s.transform) :
    Spec.compileStages (Entries.ofParts (s.parts transform)) = .ok s := by
  have hknown : ((Entries.ofParts (s.parts transform)).map (·.1)).filter
      (fun k => (Stage.ofText? k).isNone) = [] := by
    rw [List.filter_eq_nil_iff]
    intro k hk
    rcases List.mem_map.1 hk with ⟨e, he, rfl⟩
    rw [Option.isNone_iff_eq_none, ← Option.not_isSome_iff_eq_none, not_not]
    exact isSome_ofText?_of_mem he
  have hpath := Spec.compilePath_written .path h.path
  have hfallback := Spec.compilePath_written .fallback h.fallback
  have hfilter := Spec.compileStage_written Predicate.isNull_serialize h.filter
  have hmap := Spec.compileStage_written MapSpec.isNull_serialize fun m hm =>
    MapSpec.compile_serialize (h.map m hm)
  rw [Spec.compileStages, hknown]
  simp only [get_parts, part, hpath, hfallback, hfilter, hmap, htransform,
    Spec.compileDefault_written h.default, Outcome.ok_bind]
  rfl

end

/-- Stages without a function of the host are written as the entries of their parts. -/
theorem exists_serializeStages (h : s.transform.all Transform.isBuiltin = true) :
    ∃ b : Option BuiltinTransform, s.transform = b.map .builtin ∧ Spec.serializeStages s =
      .ok (.mapping (Entries.ofParts (s.parts (b.map Transform.serializeBuiltin)))) := by
  have hentry (stage : Stage) (v : Option Value) :
      Spec.entry stage v = Entries.ofOption stage.text v := by
    cases v <;> rfl
  have hentries (b : Option BuiltinTransform) :
      Entries.ofParts (s.parts (b.map Transform.serializeBuiltin)) =
        Spec.entry .path (s.path.map .text) ++ Spec.entry .fallback (s.fallback.map .text) ++
          Spec.entry .default s.default ++
          Spec.entry .transform (b.map Transform.serializeBuiltin) ++
          Spec.entry .filter (s.filter.map Predicate.serialize) ++
          Spec.entry .map (s.map.map MapSpec.serialize) := by
    simp [Entries.ofParts, parts, Stage.all, part, hentry]
  cases ht : s.transform with
  | none =>
    refine ⟨none, rfl, ?_⟩
    rw [hentries, Spec.serializeStages, ht]
    rfl
  | some t =>
    cases t with
    | builtin b =>
      refine ⟨some b, rfl, ?_⟩
      rw [hentries, Spec.serializeStages, ht]
      rfl
    | custom f =>
      rw [ht] at h
      cases h

theorem ofParts_eq_nil_iff {b : Option BuiltinTransform} (hb : s.transform = b.map .builtin) :
    Entries.ofParts (s.parts (b.map Transform.serializeBuiltin)) = [] ↔ s = {} := by
  rcases s with ⟨path, fallback, default, transform, filter, map⟩
  subst hb
  rw [Entries.ofParts_eq_nil]
  simp [parts, Stage.all, part]

end Stages

namespace Spec

/-- Whether a specification holds no function of the host. -/
def isSerializable : Spec → Bool
  | .callable _ => false
  | .structured s => s.transform.all Transform.isBuiltin
  | _ => true

theorem isStructured_ofParts {s : Stages} {transform : Option Value}
    (h : Entries.ofParts (s.parts transform) ≠ []) :
    isStructured (.mapping (Entries.ofParts (s.parts transform))) = true := by
  rcases List.exists_mem_of_ne_nil _ h with ⟨e, he⟩
  rw [isStructured, List.any_eq_true]
  exact ⟨e, he, Stages.isSome_ofText?_of_mem he⟩

section

variable [PureHost] [Validator]

/-- What reading makes sure of: literals stand for themselves and stages are read from their
serialized forms. -/
def IsReadable : Spec → Prop
  | .literal v => compile v = .ok (.literal v)
  | .structured s => s.IsReadable
  | _ => True

theorem isReadable_of_compile [LawfulValidator] {raw : Value} {s : Spec}
    (hraw : raw.isWellFormed = true) (h : compile raw = .ok s) : s.IsReadable := by
  rw [compile.eq_def] at h
  split at h
  · cases h
    trivial
  · cases h
    trivial
  · cases h
    rfl
  · next es =>
    split at h
    · rcases Outcome.map_eq_ok.1 h with ⟨stages, hstages, rfl⟩
      exact Stages.isReadable_of_compileStages hraw hstages
    · next hplain =>
      cases h
      rw [IsReadable, compile, if_neg hplain]
  · cases h
    rw [IsReadable, compile.eq_def]
    split <;> simp_all

theorem compile_parts {s : Stages} {b : Option BuiltinTransform} (h : s.IsReadable)
    (hb : s.transform = b.map .builtin) (hne : s ≠ {}) :
    compile (.mapping (Entries.ofParts (s.parts (b.map Transform.serializeBuiltin)))) =
      .ok (.structured s) := by
  have htransform : compileStage Transform.compile
      ((b.map Transform.serializeBuiltin).getD .undefined) = .ok s.transform := by
    rw [hb]
    cases b with
    | none => rfl
    | some b =>
      rw [Option.map_some, Option.map_some, Option.getD_some, compileStage,
        Transform.isNull_serializeBuiltin, h.transform b hb]
      rfl
  rw [compile, isStructured_ofParts (mt (Stages.ofParts_eq_nil_iff hb).1 hne),
    Stages.compileStages_parts h htransform]
  rfl

theorem serialize_literal {v : Value} (h : compile v = .ok (.literal v)) :
    serialize (.literal v) = .ok v := by
  cases v with
  | text t => cases h
  | mapping es =>
    rw [compile] at h
    split at h
    · rcases Outcome.map_eq_ok.1 h with ⟨stages, -, hstages⟩
      cases hstages
    · next hplain => rw [serialize, if_neg hplain]; exact fun _ => Value.noConfusion
  | _ => rfl

/-- A readable specification without a function of the host is written. It is read back unless it is
structured without stages; then it is written as the empty mapping. -/
theorem exists_serialize {s : Spec} (h : s.IsReadable) (hs : s.isSerializable = true) :
    ∃ v, serialize s = .ok v ∧ v ≠ .undefined ∧ (s ≠ .structured {} → compile v = .ok s) ∧
      (s = .structured {} → v = .mapping []) := by
  cases s with
  | literal v =>
    refine ⟨v, serialize_literal h, ?_, fun _ => h, fun hne => nomatch hne⟩
    rintro rfl
    cases h
  | path t => exact ⟨.text t, rfl, Value.noConfusion, fun _ => rfl, fun hne => nomatch hne⟩
  | callable f => cases hs
  | structured s =>
    rcases Stages.exists_serializeStages hs with ⟨b, hb, hserialize⟩
    refine ⟨_, hserialize, Value.noConfusion, fun hne => ?_, fun hempty => ?_⟩
    · exact compile_parts h hb fun hempty => hne (congrArg _ hempty)
    · rw [(Stages.ofParts_eq_nil_iff hb).2 (Spec.structured.inj hempty)]

/-- A specification that has been read and holds no function of the host is written. What is
written is read as the specification exactly if it is not a structured one without stages; that one
is read as an empty literal. -/
theorem compile_serialize_iff [LawfulValidator] {raw : Value} {s : Spec}
    (hraw : raw.isWellFormed = true) (h : compile raw = .ok s) (hs : s.isSerializable = true) :
    ∃ v, serialize s = .ok v ∧ (compile v = .ok s ↔ s ≠ .structured {}) ∧
      (s = .structured {} → compile v = .ok (.literal (.mapping []))) := by
  rcases exists_serialize (isReadable_of_compile hraw h) hs with ⟨v, hserialize, -, hback, hempty⟩
  refine ⟨v, hserialize, ⟨?_, hback⟩, ?_⟩
  · rintro hv rfl
    rw [hempty rfl] at hv
    cases hv
  · intro hstages
    rw [hempty hstages]
    rfl

end

open scoped SampleHost StandardValidator

/-- The first item at a path is a specification that is read, written and read back. -/
theorem exists_compile_serialize_first :
    ∃ raw s, raw.isWellFormed = true ∧ compile raw = .ok s ∧ s.isSerializable = true ∧
      ∃ v, serialize s = .ok v ∧ compile v = .ok s := by
  have hwell : (Value.mapping [(Stage.path.text, .ofString "a[0]"),
      (Stage.transform.text, .ofString "first")]).isWellFormed = true := by decide
  have hcompile : compile (.mapping [(Stage.path.text, .ofString "a[0]"),
      (Stage.transform.text, .ofString "first")]) =
        .ok (.structured { path := units "a[0]", transform := some (.builtin .first) }) := rfl
  obtain ⟨v, hserialize, hback, -⟩ := compile_serialize_iff hwell hcompile rfl
  exact ⟨_, _, hwell, hcompile, rfl, v, hserialize, hback.2 fun h => nomatch h⟩

/-- A structured specification whose only stage is left out is not read back. -/
theorem not_forall_compile_serialize :
    ¬∀ (raw : Value) (s : Spec), raw.isWellFormed = true → compile raw = .ok s →
      s.isSerializable = true → ∃ v, serialize s = .ok v ∧ compile v = .ok s := by
  intro h
  obtain ⟨v, hserialize, hback⟩ := h (.mapping [(Stage.path.text, .null)]) (.structured {})
    (by decide) rfl rfl
  cases hserialize
  cases hback

end Spec

end TreeExtraction
