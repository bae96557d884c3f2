import TreeExtraction.Proofs.Number.Notation
import TreeExtraction.Proofs.Outcome
import TreeExtraction.Value.Rendering

/-! # Values with an empty text or none

Whatever is written as JSON is written with at least one unit, whichever functions write it. So the
text of a value is empty only for an absent value, the empty text, and an object that is spelled out
by nothing. It is missing only for a map that JSON leaves out, as a function that is to write it
answers nothing.
-/

namespace TreeExtraction

open Outcome

/-- Joining keeps what is not empty. -/
theorem Text.join_ne_nil {separator t : Text} {ts : List Text} (ht : t ∈ ts) (hne : t ≠ []) :
    join separator ts ≠ [] := by
  induction ts with
  | nil => cases ht
  | cons u us ih =>
    cases us with
    | nil =>
      obtain rfl := List.mem_singleton.1 ht
      simpa [join] using hne
    | cons w ws =>
      have hjoin : join separator (u :: w :: ws) = u ++ separator ++ join separator (w :: ws) := by
        simp [join]
      rw [hjoin]
      rcases List.mem_cons.1 ht with rfl | ht
      · exact List.append_ne_nil_of_left_ne_nil (List.append_ne_nil_of_left_ne_nil hne _) _
      · exact List.append_ne_nil_of_right_ne_nil _ (ih ht)

namespace Value

theorem isoText_ne_nil (ms : Int) : Date.isoText ms ≠ [] := by
  simp [Date.isoText]

theorem longText_ne_nil (ms : Int) : Date.longText ms ≠ [] := by
  simp [Date.longText]

variable [PureHost] {v : Value} {key t : Text} {answered : Value → Except Failure (Option Text)}

/-! ## JSON -/

theorem jsonFrame_ne_nil {frame : Frame Value} (h : jsonFrame answered frame = .ok (some t)) :
    t ≠ [] := by
  rcases frame with ⟨c, fields, inherited, hidden⟩
  rw [jsonFrame] at h
  obtain ⟨parts, -, h⟩ := bind_eq_ok.1 h
  cases h
  exact List.cons_ne_nil _ _

/-- A structure is written between brackets. -/
theorem jsonBody_ne_nil (h : jsonBody answered v = .ok (some t)) : t ≠ [] := by
  cases v with
  | array vs frame =>
    rw [jsonBody] at h
    obtain ⟨parts, -, h⟩ := bind_eq_ok.1 h
    cases h
    exact List.cons_ne_nil _ _
  | mapping es ancestry =>
    rw [jsonBody] at h
    split at h
    · cases h
    · obtain ⟨parts, -, h⟩ := bind_eq_ok.1 h
      cases h
      exact List.cons_ne_nil _ _
  | map | set | object =>
    rw [jsonBody] at h
    exact jsonFrame_ne_nil h
  | date ms frame =>
    rw [jsonBody] at h
    split at h
    · exact jsonFrame_ne_nil h
    · cases h
      exact List.cons_ne_nil _ _
  | invalidDate i frame =>
    rw [jsonBody] at h
    split at h
    · exact jsonFrame_ne_nil h
    · cases h
      decide
  | number n =>
    rw [jsonBody] at h
    cases h
    split
    · exact n.toText_ne_nil
    · decide
  | bool b =>
    rw [jsonBody] at h
    cases h
    cases b <;> decide
  | null =>
    rw [jsonBody] at h
    cases h
    decide
  | text u =>
    rw [jsonBody] at h
    cases h
    exact List.cons_ne_nil _ _
  | undefined | symbol | function | bigint =>
    rw [jsonBody] at h
    cases h

theorem jsonAnswer_ne_nil {depth : Nat} (h : jsonAnswer depth v = .ok (some t)) : t ≠ [] := by
  cases depth with
  | zero => cases h
  | succ depth => exact jsonBody_ne_nil h

theorem json_ne_nil (h : json key v = .ok (some t)) : t ≠ [] := by
  rw [json, jsonBy] at h
  split at h
  · obtain ⟨answer, -, h⟩ := bind_eq_ok.1 h
    exact jsonAnswer_ne_nil h
  · exact jsonBody_ne_nil h

/-! ## Texts -/

/-- Whether a value is a map that JSON leaves out. -/
def IsLeftOut (v : Value) : Prop :=
  ∃ es frame entries, v = .map es frame ∧ entriesOfMap es = .ok entries ∧
    json [] (.mapping entries) = .ok none

/-- A map that JSON leaves out has a function as an entry that is to write it. -/
theorem IsLeftOut.exists_method (h : v.IsLeftOut) : ∃ es frame entries, v = .map es frame ∧
    entriesOfMap es = .ok entries ∧ (mapping entries).method? writerName ≠ none := by
  obtain ⟨es, frame, entries, rfl, hentries, hjson⟩ := h
  refine ⟨es, frame, entries, rfl, hentries, fun hnone => ?_⟩
  rw [json, jsonBy, hnone] at hjson
  simp only [jsonBody] at hjson
  obtain ⟨parts, -, hsome⟩ := bind_eq_ok.1 hjson
  cases hsome

/-- The values with an empty text are scalars or spelled out: functions, and structures that JSON
does not write. -/
theorem toText?_eq_nil (h : v.toText? = .ok (some [])) :
    v.isNull = true ∨ v = .text [] ∨ v.isObject = true ∧ spelled v = .ok [] ∧
      ((∃ f source frame, v = .function f source frame) ∨ ∀ t, json [] v ≠ .ok (some t)) := by
  have hwritten (h : written v = .ok []) :
      spelled v = .ok [] ∧ ∀ t, json [] v ≠ .ok (some t) := by
    rw [written] at h
    split at h
    · next hjson =>
      cases h
      exact absurd rfl (json_ne_nil hjson)
    · next hnone => exact ⟨h, hnone⟩
  cases v with
  | undefined | null => exact .inl rfl
  | text t =>
    cases h
    exact .inr (.inl rfl)
  | map es frame =>
    obtain ⟨entries, -, hjson⟩ := bind_eq_ok.1 h
    exact absurd rfl (json_ne_nil hjson)
  | bool b =>
    cases b <;> cases h
  | number n => exact absurd (Option.some.inj (Except.ok.inj h)) n.toText_ne_nil
  | bigint n => exact absurd (Option.some.inj (Except.ok.inj h)) (Text.ofInt_ne_nil n)
  | date ms => exact absurd (Option.some.inj (Except.ok.inj h)) (isoText_ne_nil ms)
  | invalidDate => cases h
  | symbol i d => cases h
  | function =>
    obtain ⟨t, ht, hsome⟩ := map_eq_ok.1 h
    cases hsome
    exact .inr (.inr ⟨rfl, ht, .inl ⟨_, _, _, rfl⟩⟩)
  | array | mapping | set | object =>
    obtain ⟨t, ht, hsome⟩ := map_eq_ok.1 h
    cases hsome
    obtain ⟨hspelled, hjson⟩ := hwritten ht
    exact .inr (.inr ⟨rfl, hspelled, .inr hjson⟩)

/-- The values without a text. -/
theorem toText?_eq_none (h : v.toText? = .ok none) : v.IsLeftOut := by
  cases v with
  | map es frame =>
    obtain ⟨entries, hentries, hjson⟩ := bind_eq_ok.1 h
    exact ⟨es, frame, entries, rfl, hentries, hjson⟩
  | _ =>
    obtain ⟨t, -, hsome⟩ := map_eq_ok.1 h
    cases hsome

end Value

end TreeExtraction
