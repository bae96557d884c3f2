import TreeExtraction.Proofs.Outcome
import TreeExtraction.Proofs.Text.Table
import TreeExtraction.Proofs.Value.WellFormed
import TreeExtraction.Value.SampleHost

/-! # Fields and keys

A field and a key of a value are looked up apart from each other. Both fail only where a capability
does, where a value has no keys, and where an object bars what it has under a name. On objects that
hold no function they agree, but for maps with a capability, which is asked for fields only. On a
plain mapping both answer with what it holds itself, with one exception: the name under which
objects hold the object that they inherit from is a key of every mapping that inherits from one.
-/

namespace TreeExtraction.Value

open Outcome

variable {v w : Value} {es : Entries} {ancestry : Ancestry} {name k : Text} {e : Failure}

def isFunction : Value → Bool
  | .function .. => true
  | _ => false

theorem dataOnly_eq_orNull (h : v.isFunction = false) : v.dataOnly = v.orNull := by
  cases v <;> first | rfl | cases h

/-! ## Own entries -/

/-- What entries answer to a name: the value that they hold under it, and null where there is none,
or an undefined one or a function. -/
inductive AnswersOwn (es : Entries) (k : Text) : Value → Prop
  | held {v : Value} (hget : Table.get? es k = some v) (hdefined : v ≠ .undefined)
      (hdata : v.isFunction = false) : AnswersOwn es k v
  | absent (hkey : k ∉ Table.keys es) : AnswersOwn es k .null
  | undefined (hget : Table.get? es k = some .undefined) : AnswersOwn es k .null
  | function {v : Value} (hget : Table.get? es k = some v) (hfunction : v.isFunction = true) :
      AnswersOwn es k .null

theorem answersOwn_get (es : Entries) (k : Text) : AnswersOwn es k (Entries.get es k).dataOnly := by
  rw [Entries.get]
  cases hget : Table.get? es k with
  | none => exact .absent (Table.get?_eq_none_iff.1 hget)
  | some v =>
    cases v with
    | undefined => exact .undefined hget
    | function => exact .function hget rfl
    | _ => exact .held hget (by simp [dataOnly, orNull]) rfl

/-- A property of a mapping is an own entry, but for the parent that it inherits from. -/
theorem property_mapping (es : Entries) (ancestry : Ancestry) (k : Text) :
    (mapping es ancestry).property k =
      if ancestry.hasParent = true ∧ k = parentName ∧ k ∉ Table.keys es then .mapping [] .root
      else (Entries.get es k).dataOnly := by
  rw [property, members, Entries.get]
  cases hget : Table.get? es k with
  | none =>
    have habsent : k ∉ Table.keys es := Table.get?_eq_none_iff.1 hget
    by_cases hk : k = parentName
    · cases hparent : ancestry.hasParent <;>
        simp [common?, hparent, hk, hk ▸ habsent, dataOnly, orNull]
    · simp [common?, hk, dataOnly, orNull]
  | some v =>
    have hkey : k ∈ Table.keys es := Table.mem_keys_of_mem (Table.mem_of_get? hget)
    simp [hkey]

/-! ## Failures -/

/-- Whether a value has no keys at all: a truth value, a number, a symbol or a function. -/
def isKeyless : Value → Bool
  | .bool _ | .number _ | .bigint _ | .symbol .. | .function .. => true
  | _ => false

theorem readProperty_eq_error_iff :
    v.readProperty name = .error e ↔ v.bars name = true ∧ e = .unsupported := by
  rw [readProperty]
  split
  · next h => exact ⟨fun he => ⟨h, (Except.error.inj he).symm⟩, fun he => he.2 ▸ rfl⟩
  · next h => exact ⟨fun he => absurd he (by simp), fun he => absurd he.1 h⟩

theorem ownField_eq_error_iff :
    v.ownField name = .error e ↔ v.bars name = true ∧ e = .unsupported := by
  cases v with
  | array | set | date | invalidDate | object | function => exact readProperty_eq_error_iff
  | mapping es ancestry =>
    rw [← readProperty_eq_error_iff, ownField, readProperty]
    split <;> simp
  | _ => simp [ownField, bars]

section

variable [PureHost]

/-- A field fails only as the capability of its object does, or because its object bars it. -/
theorem getField_eq_error_iff :
    v.getField name = .error e ↔
      (∃ f, v.method? capabilityName = some f ∧ ask f v name = .error e) ∨
        v.method? capabilityName = none ∧ v.bars name = true ∧ e = .unsupported := by
  rw [getField]
  cases v.method? capabilityName with
  | some f => simp [map_eq_error]
  | none => simp [ownField_eq_error_iff]

/-- A key fails only as the capability of its object does, because there are no keys, or because its
object bars it. -/
theorem getKey_eq_error (h : v.getKey k = .error e) :
    (∃ f, v.method? capabilityName = some f ∧ ask f v k = .error e) ∨
      (v.isKeyless = true ∧ e = .report (.keylessAccess k v.kind) {}) ∨
      v.method? capabilityName = none ∧ v.isKeyless = false ∧ v.bars k = true ∧
        e = .unsupported := by
  cases v with
  | undefined | null | text | array | map => cases h
  | bool | number | bigint | symbol | function =>
    cases h
    exact .inr (.inl ⟨rfl, rfl⟩)
  | mapping | set | date | invalidDate | object =>
    simp only [getKey] at h
    split at h
    · next f hf => exact .inl ⟨f, hf, map_eq_error.1 h⟩
    · next hnone => exact .inr (.inr ⟨hnone, rfl, readProperty_eq_error_iff.1 h⟩)

theorem getKey_of_isKeyless (h : v.isKeyless = true) :
    v.getKey k = .error (.report (.keylessAccess k v.kind) {}) := by
  cases v <;> first | rfl | cases h

theorem getKey_of_bars (hnone : v.method? capabilityName = none) (hkeys : v.isKeyless = false)
    (h : v.bars k = true) : v.getKey k = .error .unsupported := by
  cases v with
  | mapping es ancestry =>
    simp only [getKey, hnone]
    exact readProperty_eq_error_iff.2 ⟨h, rfl⟩
  | function => cases hkeys
  | _ => simp [bars] at h

/-! ## Agreement -/

/-- Whether no function is a value of a map or an answer of a capability. -/
structure HoldsNoFunction (v : Value) : Prop where
  entries : ∀ es frame, v = .map es frame → ∀ e ∈ es, e.2.isFunction = false
  answers : ∀ f name w, v.method? capabilityName = some f → ask f v name = .ok w →
    w.isFunction = false

/-- Objects that hold no function answer a field as they answer a key, a mapping if it has a
capability and a map if it has none. -/
theorem HoldsNoFunction.getField_eq_getKey (h : v.HoldsNoFunction) (hobject : v.isObjectLike = true)
    (hmapping : v.isMapping = true → v.method? capabilityName ≠ none)
    (hmap : ∀ es frame, v = .map es frame → v.method? capabilityName = none) (k : Text) :
    v.getField k = v.getKey k := by
  have hask {f : Nat} (hf : v.method? capabilityName = some f) :
      dataOnly <$> ask f v k = orNull <$> ask f v k := by
    cases hw : ask f v k with
    | error e => rfl
    | ok w => exact congrArg Except.ok (dataOnly_eq_orNull (h.answers f k w hf hw))
  cases v with
  | map es frame =>
    have hdata : ((atKey? es (.text k)).getD .null).isFunction = false := by
      cases hfind : atKey? es (.text k) with
      | none => rfl
      | some w =>
        obtain ⟨e, he, rfl⟩ := Option.map_eq_some_iff.1 hfind
        exact h.entries es frame rfl e (List.mem_of_find?_eq_some he)
    rw [getField, hmap es frame rfl, getKey]
    exact congrArg Except.ok (dataOnly_eq_orNull hdata)
  | mapping es ancestry =>
    simp only [getField, getKey]
    split
    · next f hf => exact hask hf
    · next hnone => exact absurd hnone (hmapping rfl)
  | set | date | invalidDate | object =>
    simp only [getField, getKey]
    split
    · next f hf => exact hask hf
    · rfl
  | _ => cases hobject

/-- Fields and keys of a plain mapping without a capability are its own entries, unless it bars
them; the one exception is the key under which it holds the object that it inherits from. All other
objects that hold no function answer both alike, a mapping that has a capability among them, and a
map if it has none. -/
theorem getField_getKey_answers (v : Value) (k : Text) :
    (∀ es ancestry, v = .mapping es ancestry → v.method? capabilityName = none →
      v.bars k = false →
      ∃ w, AnswersOwn es k w ∧ v.getField k = .ok w ∧
        v.getKey k = .ok (if ancestry.hasParent = true ∧ k = parentName ∧ k ∉ Table.keys es
          then .mapping [] .root else w)) ∧
    (v.isObjectLike = true → (v.isMapping = true → v.method? capabilityName ≠ none) →
      v.HoldsNoFunction → (∀ es frame, v = .map es frame → v.method? capabilityName = none) →
      v.getField k = v.getKey k) := by
  constructor
  · rintro es ancestry rfl hnone hbars
    refine ⟨_, answersOwn_get es k, ?_, ?_⟩
    · rw [getField, hnone]
      exact if_neg (ne_true_of_eq_false hbars)
    · simp only [getKey, hnone]
      rw [readProperty, hbars, property_mapping]
      rfl
  · intro hobject hmapping h hmap
    exact h.getField_eq_getKey hobject hmapping hmap k

end

section

open scoped SampleHost

/-- An entry under the name of the capability that is no function, next to one that is; and an
object whose class has a capability, asked for what it inherits. -/
theorem getField_getKey_answers_uncalled :
    let es : Entries := [(capabilityName, .bool true), (units "f", SampleFunction.kind.value)]
    let note : Value := .object 0 { className := some (units "Note"),
                                    inherited := [(capabilityName, SampleFunction.kind.value)] }
    (mapping es).method? capabilityName = none ∧ (mapping es).bars (units "f") = false ∧
      (∃ w, AnswersOwn es (units "f") w ∧ (mapping es).getField (units "f") = .ok w ∧
        (mapping es).getKey (units "f") = .ok
          (if Ancestry.ordinary.hasParent = true ∧ units "f" = parentName ∧
            units "f" ∉ Table.keys es then .mapping [] .root else w)) ∧
      note.isObjectLike = true ∧ note.isMapping = false ∧ note.HoldsNoFunction ∧
      note.getField parentName = note.getKey parentName := by
  intro es note
  have hmapping : note.isMapping = true → note.method? capabilityName ≠ none :=
    fun h => absurd h Bool.false_ne_true
  have hnote : note.HoldsNoFunction := by
    refine ⟨nofun, fun f name w hf hw => ?_⟩
    cases hf
    cases hw
    rfl
  have hbars : (mapping es).bars (units "f") = false := rfl
  have hown := (getField_getKey_answers (.mapping es) (units "f")).1 es .ordinary rfl rfl hbars
  exact ⟨rfl, hbars, hown, rfl, rfl, hnote,
    (getField_getKey_answers note parentName).2 rfl hmapping hnote nofun⟩

/-- An empty mapping has a key that it does not hold itself. -/
theorem not_forall_getKey_answersOwn :
    ¬∀ (es : Entries) (k : Text), (mapping es).isWellFormed = true →
      (mapping es).method? capabilityName = none →
      ∃ w, AnswersOwn es k w ∧ (mapping es).getField k = .ok w ∧ (mapping es).getKey k = .ok w := by
  intro h
  obtain ⟨w, -, hfield, hkey⟩ := h [] parentName rfl rfl
  have hnull : (mapping []).getField parentName = .ok .null := rfl
  have hparent : (mapping []).getKey parentName = .ok (.mapping [] .root) := rfl
  rw [hnull] at hfield
  rw [hparent] at hkey
  cases hfield
  cases hkey

end

end TreeExtraction.Value
