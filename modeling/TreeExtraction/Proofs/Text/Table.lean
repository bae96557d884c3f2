import Mathlib.Data.List.Nodup
import Mathlib.Data.List.TakeWhile
import TreeExtraction.Text.Table

/-! # Laws of tables

What a table answers, and which entries it has after others are put in. New keys that name no list
position go to the end, so a list of such entries is the table of itself.
-/

namespace TreeExtraction.Table

variable {α : Type} {t s es : Table α} {k l : Text} {v : α}

@[simp] theorem keys_nil : keys ([] : Table α) = [] := rfl

@[simp] theorem keys_cons (e : Text × α) : keys (e :: t) = e.1 :: keys t := rfl

@[simp] theorem keys_append : keys (t ++ s) = keys t ++ keys s := List.map_append

theorem mem_keys_of_mem (h : (k, v) ∈ t) : k ∈ keys t :=
  List.mem_map_of_mem h

theorem notMem_keys {e : Text × α} (h : (keys (t ++ e :: es)).Nodup) : e.1 ∉ keys t := by
  rw [keys_append, List.nodup_append] at h
  exact fun hmem => h.2.2 _ hmem _ (by simp) rfl

theorem has_iff : has t k = true ↔ k ∈ keys t := by
  rw [has, get?, List.lookup_isSome_iff, keys, List.mem_map]
  constructor
  · rintro ⟨e, he, hk⟩
    exact ⟨e, he, (beq_iff_eq.1 hk).symm⟩
  · rintro ⟨e, he, rfl⟩
    exact ⟨e, he, beq_self_eq_true _⟩

theorem has_eq_false (h : k ∉ keys t) : has t k = false := by
  rw [← Bool.not_eq_true, has_iff]
  exact h

/-! ## Lookup -/

theorem get?_append : get? (t ++ s) k = (get? t k).or (get? s k) :=
  List.lookup_append

theorem get?_cons_of_ne (h : k ≠ l) : get? ((l, v) :: t) k = get? t k := by
  rw [get?, List.lookup_cons, beq_eq_false_iff_ne.2 h]
  rfl

theorem get?_eq_none_iff : get? t k = none ↔ k ∉ keys t := by
  rw [← Option.not_isSome_iff_eq_none, ← has, has_iff]

theorem get?_eq_none (h : k ∉ keys t) : get? t k = none :=
  get?_eq_none_iff.2 h

/-- In a table without repeated keys the entries are what lookup finds. -/
theorem get?_eq_some_iff (hkeys : (keys t).Nodup) : get? t k = some v ↔ (k, v) ∈ t := by
  induction t with
  | nil => simp [get?]
  | cons e t ih =>
    rcases e with ⟨l, w⟩
    rw [keys_cons, List.nodup_cons] at hkeys
    by_cases hk : k = l
    · subst hk
      constructor
      · intro h
        obtain rfl : w = v := by simpa [get?] using h
        exact List.mem_cons_self
      · intro h
        rcases List.mem_cons.1 h with h | h
        · cases h
          simp [get?]
        · exact absurd (mem_keys_of_mem h) hkeys.1
    · rw [get?_cons_of_ne hk, ih hkeys.2, List.mem_cons, Prod.mk.injEq]
      simp [hk]

theorem mem_of_get? (h : get? t k = some v) : (k, v) ∈ t := by
  rw [get?, List.lookup_eq_some_iff] at h
  rcases h with ⟨before, after, rfl, -⟩
  simp

theorem keys_perm (h : t.Perm s) : (keys t).Perm (keys s) :=
  h.map _

/-- The order of entries does not matter to lookup. -/
theorem get?_perm (hkeys : (keys t).Nodup) (h : t.Perm s) (k : Text) : get? t k = get? s k := by
  have hs : (keys s).Nodup := (keys_perm h).nodup_iff.1 hkeys
  ext v
  rw [get?_eq_some_iff hkeys, get?_eq_some_iff hs, h.mem_iff]

/-! ## Putting entries in -/

@[simp] theorem keys_replace : keys (replace t k v) = keys t := by
  rw [replace, keys, keys, List.map_map]
  apply List.map_congr_left
  intro e _
  rw [Function.comp]
  split
  · next h => exact (beq_iff_eq.1 h).symm
  · rfl

theorem replace_append : replace (t ++ s) k v = replace t k v ++ replace s k v :=
  List.map_append

theorem replace_of_notMem (h : k ∉ keys t) : replace t k v = t := by
  have hsame : ∀ e ∈ t, (if e.1 == k then (k, v) else e) = e := by
    intro e he
    rw [if_neg]
    rintro hk
    exact h (beq_iff_eq.1 hk ▸ List.mem_map_of_mem he)
  rw [replace, List.map_congr_left hsame, List.map_id'']
  exact fun _ => rfl

theorem insert_of_notMem (h : k ∉ keys t) : insert t k v = t ++ [(k, v)] := by
  rw [insert, has_eq_false h]
  rfl

theorem keys_insert (t : Table α) (k : Text) (v : α) :
    keys (insert t k v) = if k ∈ keys t then keys t else keys t ++ [k] := by
  split
  · next h => rw [insert, has_iff.2 h, if_pos rfl, keys_replace]
  · next h =>
    rw [insert_of_notMem h, keys_append]
    rfl

theorem nodup_keys_insert (hkeys : (keys t).Nodup) : (keys (insert t k v)).Nodup := by
  rw [keys_insert]
  split
  · exact hkeys
  · next h => exact List.nodup_append.2 ⟨hkeys, List.nodup_singleton _, by grind⟩

/-- An entry of a table after an insertion is the new one or was there before. -/
theorem mem_insert {e : Text × α} (h : e ∈ insert t k v) : e = (k, v) ∨ e ∈ t := by
  rw [insert] at h
  split at h
  · rw [replace, List.mem_map] at h
    rcases h with ⟨f, hf, rfl⟩
    split
    · exact .inl rfl
    · exact .inr hf
  · rcases List.mem_append.1 h with h | h
    · exact .inr h
    · exact .inl (List.mem_singleton.1 h)

/-- Entries under new and distinct keys are put in as they stand. -/
theorem foldl_insert (h : (keys (t ++ es)).Nodup) :
    es.foldl (fun m e => insert m e.1 e.2) t = t ++ es := by
  induction es generalizing t with
  | nil => rw [List.foldl_nil, List.append_nil]
  | cons e es ih =>
    have hsplit : t ++ e :: es = (t ++ [e]) ++ es := by simp
    rw [List.foldl_cons, insert_of_notMem (notMem_keys h), hsplit, ih (hsplit ▸ h)]

theorem set_of_has (h : k ∈ keys t) : set t k v = replace t k v := by
  rw [set, has_iff.2 h, if_pos rfl]

theorem set_named (h : k ∉ keys t) (hk : Text.position? k = none) :
    set t k v = t ++ [(k, v)] := by
  rw [set, has_eq_false h, hk]
  rfl

theorem set_position {p : Nat} (h : k ∉ keys t) (hk : Text.position? k = some p) :
    set t k v =
      t.takeWhile (fun e => isBelow p e.1) ++ (k, v) :: t.dropWhile (fun e => isBelow p e.1) := by
  rw [set, has_eq_false h, hk]
  rfl

theorem set_perm (h : k ∉ keys t) : (set t k v).Perm ((k, v) :: t) := by
  cases hk : Text.position? k with
  | none =>
    rw [set_named h hk]
    exact List.perm_append_singleton _ _
  | some p =>
    rw [set_position h hk]
    refine List.perm_middle.trans (List.Perm.cons _ ?_)
    rw [List.takeWhile_append_dropWhile]

theorem mem_keys_set (t : Table α) (k : Text) (v : α) (l : Text) :
    l ∈ keys (set t k v) ↔ l = k ∨ l ∈ keys t := by
  by_cases h : k ∈ keys t
  · rw [set_of_has h, keys_replace]
    exact ⟨.inr, fun hl => hl.elim (fun hl => hl ▸ h) id⟩
  · rw [(keys_perm (set_perm h)).mem_iff, keys_cons, List.mem_cons]

/-! ## Merging -/

@[simp] theorem merge_nil : merge t [] = t := rfl

theorem merge_cons (e : Text × α) : merge t (e :: es) = merge (set t e.1 e.2) es := rfl

theorem merge_append : merge t (es ++ s) = merge (merge t es) s :=
  List.foldl_append

theorem mem_keys_merge : k ∈ keys (merge t es) ↔ k ∈ keys t ∨ k ∈ keys es := by
  induction es generalizing t with
  | nil => simp
  | cons e es ih =>
    rw [merge_cons, ih, mem_keys_set, keys_cons, List.mem_cons]
    simp only [or_assoc, or_left_comm]

/-- New entries that name no positions go to the end. -/
theorem merge_named (h : (keys (t ++ es)).Nodup) (hes : ∀ e ∈ es, Text.position? e.1 = none) :
    merge t es = t ++ es := by
  induction es generalizing t with
  | nil => rw [merge_nil, List.append_nil]
  | cons e es ih =>
    have hsplit : t ++ e :: es = (t ++ [e]) ++ es := by simp
    rw [merge_cons, set_named (notMem_keys h) (hes e (by simp)), hsplit,
      ih (hsplit ▸ h) fun f hf => hes f (by simp [hf])]

theorem ofList_named (h : (keys es).Nodup) (hes : ∀ e ∈ es, Text.position? e.1 = none) :
    ofList es = es :=
  merge_named h hes

theorem merge_perm (h : (keys (t ++ es)).Nodup) : (merge t es).Perm (t ++ es) := by
  induction es generalizing t with
  | nil => rw [merge_nil, List.append_nil]
  | cons e es ih =>
    have hset : (set t e.1 e.2 ++ es).Perm (t ++ e :: es) :=
      ((set_perm (notMem_keys h)).append_right es).trans List.perm_middle.symm
    rw [merge_cons]
    exact (ih ((keys_perm hset).nodup_iff.2 h)).trans hset

/-- Entries under distinct keys are the entries of their table. -/
theorem ofList_perm (h : (keys es).Nodup) : (ofList es).Perm es :=
  merge_perm h

/-! ## Mapping values -/

/-- A table with a function applied to each value. -/
def mapValues {β : Type} (f : α → β) (t : Table α) : Table β :=
  t.map fun e => (e.1, f e.2)

variable {β : Type} (f : α → β)

@[simp] theorem keys_mapValues (t : Table α) : keys (mapValues f t) = keys t := by
  rw [mapValues, keys, keys, List.map_map]
  rfl

theorem mapValues_append (t s : Table α) :
    mapValues f (t ++ s) = mapValues f t ++ mapValues f s :=
  List.map_append

theorem mapValues_replace (t : Table α) (k : Text) (v : α) :
    mapValues f (replace t k v) = replace (mapValues f t) k (f v) := by
  rw [replace, replace, mapValues, mapValues, List.map_map, List.map_map]
  apply List.map_congr_left
  intro e _
  simp only [Function.comp]
  split <;> rfl

theorem mapValues_set (t : Table α) (k : Text) (v : α) :
    mapValues f (set t k v) = set (mapValues f t) k (f v) := by
  by_cases h : k ∈ keys t
  · rw [set_of_has h, set_of_has (by rwa [keys_mapValues]), mapValues_replace]
  · have h' : k ∉ keys (mapValues f t) := by rwa [keys_mapValues]
    cases hp : Text.position? k with
    | none => rw [set_named h hp, set_named h' hp, mapValues_append]; rfl
    | some p =>
      rw [set_position h hp, set_position h' hp, mapValues_append]
      simp only [mapValues, List.map_cons, List.takeWhile_map, List.dropWhile_map]
      rfl

/-- Reading order does not depend on the values. -/
theorem mapValues_ofList (es : Table α) : mapValues f (ofList es) = ofList (mapValues f es) := by
  have hmerge (t es : Table α) :
      mapValues f (merge t es) = merge (mapValues f t) (mapValues f es) := by
    induction es generalizing t with
    | nil => rfl
    | cons e es ih =>
      rw [merge_cons, ih, mapValues_set]
      rfl
  exact hmerge [] es

end TreeExtraction.Table
