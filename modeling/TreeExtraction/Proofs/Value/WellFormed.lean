import TreeExtraction.Proofs.Value.Parts
import TreeExtraction.Schema.Validator

/-! # Well-formed values

A plain mapping has each key once, and so have the parts of a frame; a map has no two keys that name
the same entry. A value is well formed if this holds of everything inside it; every value of a host
is.
-/

namespace TreeExtraction

namespace Value

mutual

/-- Whether no mapping, frame or map inside a value repeats a key. -/
def isWellFormed : Value → Bool
  | .array vs frame => itemsWellFormed vs && frameWellFormed frame
  | .mapping es _ => decide (Table.keys es).Nodup && entriesWellFormed es
  | .map es frame =>
    decide (es.Pairwise fun a b => a.1.same b.1 = false) && keyedWellFormed es &&
      frameWellFormed frame
  | .set _ vs frame => membersWellFormed vs && frameWellFormed frame
  | .date _ frame => frameWellFormed frame
  | .invalidDate _ frame => frameWellFormed frame
  | .object _ frame => frameWellFormed frame
  | .function _ _ frame => frameWellFormed frame
  | _ => true

def itemsWellFormed : List (Option Value) → Bool
  | [] => true
  | none :: vs => itemsWellFormed vs
  | some v :: vs => isWellFormed v && itemsWellFormed vs

def membersWellFormed : List Value → Bool
  | [] => true
  | v :: vs => isWellFormed v && membersWellFormed vs

def entriesWellFormed : List (Text × Value) → Bool
  | [] => true
  | (_, v) :: es => isWellFormed v && entriesWellFormed es

def keyedWellFormed : List (Key Value × Value) → Bool
  | [] => true
  | (.reference _ k, v) :: es => isWellFormed k && isWellFormed v && keyedWellFormed es
  | (_, v) :: es => isWellFormed v && keyedWellFormed es

/-- Whether the parts of a frame have distinct keys and well-formed values. -/
def frameWellFormed : Frame Value → Bool
  | ⟨_, fields, inherited, hidden⟩ =>
    (decide (Table.keys fields).Nodup && entriesWellFormed fields) &&
      (decide (Table.keys inherited).Nodup && entriesWellFormed inherited) &&
      (decide (Table.keys hidden).Nodup && entriesWellFormed hidden)

end

theorem entriesWellFormed_iff {es : Entries} :
    entriesWellFormed es = true ↔ ∀ e ∈ es, e.2.isWellFormed = true := by
  induction es with
  | nil => simp [entriesWellFormed]
  | cons e es ih => simp [entriesWellFormed, ih]

theorem itemsWellFormed_iff {vs : List (Option Value)} :
    itemsWellFormed vs = true ↔ ∀ v ∈ present vs, v.isWellFormed = true := by
  induction vs with
  | nil => simp [itemsWellFormed, present]
  | cons item vs ih =>
    rw [present] at ih
    cases item <;> simp [itemsWellFormed, present, ih]

theorem membersWellFormed_iff {vs : List Value} :
    membersWellFormed vs = true ↔ ∀ v ∈ vs, v.isWellFormed = true := by
  induction vs with
  | nil => simp [membersWellFormed]
  | cons v vs ih => simp [membersWellFormed, ih]

theorem keyedWellFormed_iff {es : List (Key Value × Value)} :
    keyedWellFormed es = true ↔
      ∀ e ∈ es, (ofKey e.1).isWellFormed = true ∧ e.2.isWellFormed = true := by
  induction es with
  | nil => simp [keyedWellFormed]
  | cons e es ih =>
    rcases e with ⟨k, v⟩
    cases k <;> simp [keyedWellFormed, ofKey, isWellFormed, ih]

end Value

namespace Entries

/-- Whether entries have distinct keys and well-formed values. -/
def isWellFormed (es : Entries) : Bool :=
  decide (Table.keys es).Nodup && Value.entriesWellFormed es

variable {es : Entries}

theorem isWellFormed_iff :
    es.isWellFormed = true ↔ (Table.keys es).Nodup ∧ ∀ e ∈ es, e.2.isWellFormed = true := by
  rw [isWellFormed, Bool.and_eq_true, decide_eq_true_iff, Value.entriesWellFormed_iff]

theorem nodup_keys (h : es.isWellFormed = true) : (Table.keys es).Nodup :=
  (isWellFormed_iff.1 h).1

theorem value_isWellFormed (h : es.isWellFormed = true) {e : Text × Value} (he : e ∈ es) :
    e.2.isWellFormed = true :=
  (isWellFormed_iff.1 h).2 e he

/-- What is looked up is undefined or the value of an entry. -/
theorem get_isWellFormed (h : es.isWellFormed = true) (k : Text) :
    (get es k).isWellFormed = true := by
  rw [get]
  cases hget : Table.get? es k with
  | none => rfl
  | some v => exact value_isWellFormed h (Table.mem_of_get? hget)

end Entries

namespace Value

variable {v w : Value} {frame : Frame Value}

theorem frameWellFormed_iff : frameWellFormed frame = true ↔
    Entries.isWellFormed frame.fields = true ∧ Entries.isWellFormed frame.inherited = true ∧
      Entries.isWellFormed frame.hidden = true := by
  rcases frame with ⟨c, fields, inherited, hidden⟩
  rw [frameWellFormed, Bool.and_eq_true, Bool.and_eq_true, and_assoc]
  rfl

theorem isWellFormed_of_mem_frame (h : frameWellFormed frame = true) (hw : w ∈ frame.parts) :
    w.isWellFormed = true := by
  obtain ⟨hfields, hinherited, hhidden⟩ := frameWellFormed_iff.1 h
  simp only [Frame.parts, List.map_append, List.mem_append, List.mem_map] at hw
  rcases hw with (⟨e, he, rfl⟩ | ⟨e, he, rfl⟩) | ⟨e, he, rfl⟩
  · exact Entries.value_isWellFormed hfields he
  · exact Entries.value_isWellFormed hinherited he
  · exact Entries.value_isWellFormed hhidden he

/-- The parts of a well-formed value are well formed. -/
theorem isWellFormed_of_mem_parts (hv : v.isWellFormed = true) (hw : w ∈ v.parts) :
    w.isWellFormed = true := by
  cases v with
  | array vs frame =>
    rw [isWellFormed, Bool.and_eq_true] at hv
    rcases List.mem_append.1 hw with hw | hw
    · exact itemsWellFormed_iff.1 hv.1 w hw
    · exact isWellFormed_of_mem_frame hv.2 hw
  | set i vs frame =>
    rw [isWellFormed, Bool.and_eq_true] at hv
    rcases List.mem_append.1 hw with hw | hw
    · exact membersWellFormed_iff.1 hv.1 w hw
    · exact isWellFormed_of_mem_frame hv.2 hw
  | mapping es ancestry =>
    obtain ⟨e, he, rfl⟩ := List.mem_map.1 hw
    rw [isWellFormed, Bool.and_eq_true] at hv
    exact entriesWellFormed_iff.1 hv.2 e he
  | map es frame =>
    rw [isWellFormed, Bool.and_eq_true, Bool.and_eq_true] at hv
    rcases List.mem_append.1 hw with hw | hw
    · obtain ⟨e, he, hw⟩ := List.mem_flatMap.1 hw
      have hentry := keyedWellFormed_iff.1 hv.1.2 e he
      rcases List.mem_cons.1 hw with rfl | hw
      · exact hentry.1
      · obtain rfl := List.mem_singleton.1 hw
        exact hentry.2
    · exact isWellFormed_of_mem_frame hv.2 hw
  | date | invalidDate | object | function => exact isWellFormed_of_mem_frame hv hw
  | _ => cases hw

/-- What counts as an object has well-formed entries. -/
theorem isWellFormed_of_objectEntries? {keys : List Text} {es : Entries}
    (h : v.objectEntries? keys = some es) (hv : v.isWellFormed = true) :
    es.isWellFormed = true := by
  rw [objectEntries?.eq_def] at h
  split at h
  · cases h
  · cases v with
    | mapping es ancestry =>
      cases h
      exact hv
    | object i frame =>
      cases h
      obtain ⟨hfields, hinherited, -⟩ := frameWellFormed_iff.1 hv
      rw [Entries.isWellFormed_iff, Table.keys_append]
      have hkeys : ((Table.keys frame.inherited).filter fun k =>
          keys.contains k && !Table.has frame.fields k) = Table.keys (frame.inherited.filter
            fun e => keys.contains e.1 && !Table.has frame.fields e.1) := List.filter_map
      constructor
      · rw [← hkeys]
        refine List.Nodup.append (Entries.nodup_keys hfields)
          ((Entries.nodup_keys hinherited).filter _) fun k hfield hother => ?_
        have hfree := (List.mem_filter.1 hother).2
        rw [Bool.and_eq_true, Bool.not_eq_true', ← Bool.not_eq_true, Table.has_iff] at hfree
        exact hfree.2 hfield
      · intro e he
        rcases List.mem_append.1 he with he | he
        · exact Entries.value_isWellFormed hfields he
        · exact Entries.value_isWellFormed hinherited (List.mem_of_mem_filter he)
    | _ => cases h

end Value

end TreeExtraction
