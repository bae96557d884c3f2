import TreeExtraction.Proofs.Value.Access
import TreeExtraction.Proofs.Value.Texts

/-! # Data

Data are the values that are built from scalars, arrays, plain mappings and maps, with no function
and no object of a host class inside. Whatever is asked of data, the answer is data again, and it
comes to an error only for a key of a truth value or a number. All data are written as JSON, so they
have a text, except for maps with a key that has none: a mapping that inherits nothing or has an
entry `toString`, which then is no function, cannot be spelled out.
-/

namespace TreeExtraction.Value

variable {v w : Value} {name : Text}

/-! ## Data -/

/-- Whether a value is a scalar, a plain mapping but for those that sets and dates inherit from, or
an array or a map without members that answer for its text. -/
def isDataKind : Value → Bool
  | .array _ frame | .map _ frame => textMethods.all fun m => !Table.has frame.members m
  | .mapping es ancestry => !(mapping es ancestry).isKindParent
  | v => v.isScalar

/-- Whether a value is built from scalars, arrays, plain mappings and maps. -/
def IsData (v : Value) : Prop :=
  v.Throughout parts fun w => w.isDataKind = true

theorem IsBare.isDataKind (h : v.IsBare) (hparent : v.isKindParent = false) :
    v.isDataKind = true := by
  cases h with
  | scalar h => cases v <;> first | rfl | cases h
  | mapping => rw [Value.isDataKind, hparent, Bool.not_false]
  | arrayParent => decide

theorem mem_parts_of_mem_contents (h : w ∈ v.contents) : w ∈ v.parts := by
  have hframe {frame : Frame Value} (h : w ∈ frame.fields.map (·.2)) : w ∈ frame.parts := by
    rw [Frame.parts, List.map_append, List.map_append]
    exact List.mem_append_left _ (List.mem_append_left _ h)
  cases v with
  | mapping => exact h
  | array | map | set =>
    rcases List.mem_append.1 h with h | h
    · exact List.mem_append_left _ h
    · exact List.mem_append_right _ (hframe h)
  | date | object => exact hframe h
  | _ => cases h

theorem mem_contents_of_mem_shownParts (h : w ∈ v.shownParts) : w ∈ v.contents := by
  cases v with
  | array => exact List.mem_append_left _ h
  | mapping | object => exact h
  | map | set => exact List.mem_append_right _ h
  | date =>
    rw [shownParts] at h
    split at h
    · exact h
    · cases h
  | _ => cases h

/-- What holds throughout all parts of a value holds throughout its contents. -/
theorem Throughout.contents {P : Value → Prop} (h : v.Throughout parts P) :
    v.Throughout contents P := by
  induction h with
  | intro here _ ih => exact .intro here fun w hw => ih w (mem_parts_of_mem_contents hw)

namespace IsData

theorem of_isBare (h : v.IsBare) (hparent : v.isKindParent = false) : v.IsData :=
  h.throughout (h.isDataKind hparent) rfl

theorem answer (hv : v.IsData) (h : v.IsFoundIn w) : w.IsData := by
  rcases h with h | ⟨hbare, hparent⟩
  · exact hv.holds h
  · have hplain : v.isSetOrDate ≠ true := by
      have hkind := hv.here
      cases v with
      | set | date | invalidDate => cases hkind
      | _ => exact Bool.false_ne_true
    exact of_isBare hbare (eq_false_of_ne_true fun hw => hplain (hparent hw))

theorem of_entries {es : Entries} (h : ∀ v ∈ es.map (·.2), v.IsData) : (mapping es).IsData :=
  .intro rfl h

theorem not_function (f : Nat) (source : Text) (frame : Frame Value) :
    ¬(function f source frame).IsData :=
  fun h => absurd h.here Bool.false_ne_true

/-- Data have no methods. -/
theorem method?_eq_none (h : v.IsData) (name : Text) : v.method? name = none := by
  refine Value.method?_eq_none fun f source frame hget => not_function f source frame ?_
  exact h.inside (mem_parts_of_mem_members (Table.mem_of_get? hget))

/-- Of data, only scalars have no keys at all. -/
theorem isScalar_of_isKeyless (h : v.IsData) (hkeyless : v.isKeyless = true) :
    v.isScalar = true := by
  cases v with
  | bool | number => rfl
  | bigint | symbol | function => cases h.here
  | _ => cases hkeyless

theorem bars_eq_false (h : v.IsData) : v.bars name = false := by
  have hkind := h.here
  cases v with
  | mapping es ancestry =>
    cases ancestry with
    | parentOfSets => cases hkind
    | _ => simp [bars]
  | function => cases hkind
  | _ => simp [bars]

/-! ## Texts -/

/-- Nothing is called for the text of data. -/
theorem isInert (h : v.IsData) : v.IsInert := by
  refine (Throughout.contents h).imp fun w hw => ?_
  have hkind := hw.here
  cases w with
  | array _ frame | map _ frame =>
    have habsent : ∀ m ∈ textMethods, Table.get? frame.members m = none := by
      intro m hm
      have hm := List.all_eq_true.1 hkind m hm
      rw [Bool.not_eq_true', ← Bool.not_eq_true, Table.has_iff] at hm
      exact Table.get?_eq_none_iff.2 hm
    refine ⟨fun m hm => Value.method?_eq_none fun f source frame => ?_, fun hheld => ?_⟩
    · simp [members, habsent m hm]
    · exact absurd (habsent spellingName (by decide)) hheld
  | mapping es ancestry =>
    rintro rfl
    cases hkind
  | undefined | null | bool | number | text => exact ⟨fun _ _ => rfl, fun hne => absurd rfl hne⟩
  | _ => cases hkind

end IsData

theorem not_showsBigint_of_data (h : v.Throughout contents fun w => w.isDataKind = true) :
    ¬v.ShowsBigint := by
  intro hshows
  induction hshows with
  | here hn =>
    obtain ⟨n, rfl⟩ := hn
    cases h.here
  | inside hw _ ih => exact ih (h.inside (mem_contents_of_mem_shownParts hw))

/-- JSON comes upon no big integer in data. -/
theorem IsData.not_showsBigint (h : v.IsData) : ¬v.ShowsBigint :=
  not_showsBigint_of_data (Throughout.contents h)

/-- The keys of a map. -/
def keys : Value → List Value
  | .map es _ => es.map fun e => ofKey e.1
  | _ => []

/-- Whether the keys of all maps inside a value can be spelled out. -/
def HasSpellableKeys (v : Value) : Prop :=
  v.Throughout parts fun w => ∀ k ∈ w.keys, ¬k.IsUnspellable

theorem IsBare.keys_eq_nil (h : v.IsBare) : v.keys = [] := by
  cases h with
  | scalar h => cases v <;> first | rfl | cases h
  | _ => rfl

theorem HasSpellableKeys.answer (hv : v.HasSpellableKeys) (h : v.IsFoundIn w) :
    w.HasSpellableKeys := by
  refine Throughout.answer (fun u hu => ?_) hv h
  rw [hu.keys_eq_nil]
  exact nofun

/-- Data lack a text only as a map with a key that cannot be spelled out. -/
theorem IsData.not_hasSpellableKeys [PureHost] (h : v.IsData) (hlacks : v.LacksText) :
    ¬v.HasSpellableKeys := by
  intro hkeys
  cases v with
  | map es frame =>
    rcases hlacks with ⟨e, he, hkey⟩ | ⟨entries, hentries, hbigint⟩
    · exact hkeys.here _ (List.mem_map_of_mem he) hkey
    · have hvalues : ∀ e ∈ es, e.2.IsData := fun e he =>
        h.inside (List.mem_append_left _ (List.mem_flatMap.2 ⟨e, he, by simp⟩))
      have hdata : (mapping entries).IsData :=
        .intro rfl (forall_entriesOfMap hvalues hentries)
      exact hdata.not_showsBigint hbigint
  | date => cases hlacks
  | _ => exact h.not_showsBigint hlacks.1

end TreeExtraction.Value
