import TreeExtraction.Proofs.Text.Table
import TreeExtraction.Value.Basic

/-! # Entries that may be missing

Serialized forms are mappings in which some entries may be left out. Looking up the key of a part in
such a mapping gives the value of the part, and undefined if the part is left out.
-/

namespace TreeExtraction.Entries

variable {es : Entries} {parts : Table (Option Value)} {k l : Text} {v : Option Value}

/-- The entry of a key, if there is a value for it. -/
def ofOption (k : Text) (v : Option Value) : Entries :=
  match v with
  | some x => [(k, x)]
  | none => []

/-- The entries of parts, some of which may be missing. -/
def ofParts (parts : Table (Option Value)) : Entries :=
  parts.flatMap fun p => ofOption p.1 p.2

theorem get_cons_self (es : Entries) (k : Text) (v : Value) : get ((k, v) :: es) k = v := by
  rw [get, Table.get?, List.lookup_cons_self]
  rfl

theorem get_cons_of_ne {v : Value} (h : k ≠ l) : get ((l, v) :: es) k = get es k := by
  rw [get, get, Table.get?_cons_of_ne h]

theorem get_of_notMem (h : k ∉ Table.keys es) : get es k = .undefined := by
  rw [get, Table.get?_eq_none h]
  rfl

theorem get_append_of_notMem {fs : Entries} (h : k ∉ Table.keys es) :
    get (es ++ fs) k = get fs k := by
  rw [get, get, Table.get?_append, Table.get?_eq_none h, Option.none_or]

theorem keys_ofOption_subset (k : Text) (v : Option Value) : Table.keys (ofOption k v) ⊆ [k] := by
  cases v with
  | none => exact List.nil_subset _
  | some v => exact List.Subset.refl _

theorem ofParts_cons (p : Text × Option Value) (parts : Table (Option Value)) :
    ofParts (p :: parts) = ofOption p.1 p.2 ++ ofParts parts := rfl

theorem keys_ofParts_subset (parts : Table (Option Value)) :
    Table.keys (ofParts parts) ⊆ Table.keys parts := by
  induction parts with
  | nil => exact List.nil_subset _
  | cons p parts ih =>
    rw [ofParts_cons, Table.keys_append, Table.keys_cons]
    exact List.append_subset.2 ⟨List.Subset.trans (keys_ofOption_subset p.1 p.2) (by simp),
      List.Subset.trans ih (List.subset_cons_self _ _)⟩

/-- The value of a part is found under its key. -/
theorem get_ofParts (hkeys : (Table.keys parts).Nodup) (h : (k, v) ∈ parts) :
    get (ofParts parts) k = v.getD .undefined := by
  induction parts with
  | nil => cases h
  | cons p parts ih =>
    rw [Table.keys_cons, List.nodup_cons] at hkeys
    rw [ofParts_cons]
    rcases List.mem_cons.1 h with rfl | h
    · cases v with
      | none => exact get_of_notMem fun hk => hkeys.1 (keys_ofParts_subset _ hk)
      | some v => exact get_cons_self _ _ _
    · have hk : k ∉ Table.keys (ofOption p.1 p.2) := by
        intro hk
        rw [List.mem_singleton.1 (keys_ofOption_subset _ _ hk)] at h
        exact hkeys.1 (Table.mem_keys_of_mem h)
      rw [get_append_of_notMem hk, ih hkeys.2 h]

/-- A part is there if the mapping of all parts has its key. -/
theorem ofParts_eq_nil : ofParts parts = [] ↔ ∀ p ∈ parts, p.2 = none := by
  rw [ofParts, List.flatMap_eq_nil_iff]
  apply forall₂_congr
  intro p _
  cases p.2 <;> simp [ofOption]

end TreeExtraction.Entries
