import Mathlib.Data.List.Forall2
import TreeExtraction.Proofs.Text.ReadingOrder

/-! # What tables answer

Entries that are put in a table one after the other answer in place of those before them: a key has
the last value that was put in under it. Two tables that answer alike are the same but for the order
of their entries.
-/

namespace TreeExtraction.Table

variable {α β : Type} {t s es : Table α} {k l : Text} {v : α}

theorem get?_cons (e : Text × α) (t : Table α) (k : Text) :
    get? (e :: t) k = if k = e.1 then some e.2 else get? t k := by
  rcases e with ⟨l, w⟩
  by_cases hk : k = l
  · subst hk
    simp [get?]
  · rw [if_neg hk, get?_cons_of_ne hk]

theorem get?_replace (t : Table α) (k : Text) (v : α) (l : Text) :
    get? (replace t k v) l = if l = k then (get? t k).map fun _ => v else get? t l := by
  induction t with
  | nil => simp [replace, get?]
  | cons e t ih =>
    rw [replace, List.map_cons, ← replace, get?_cons, get?_cons, get?_cons, ih]
    by_cases he : e.1 = k
    · by_cases hl : l = k <;> simp [he, hl]
    · by_cases hl : l = k
      · subst hl
        simp [he, Ne.symm he]
      · simp [he, hl]

theorem get?_insert (t : Table α) (k : Text) (v : α) (l : Text) :
    get? (insert t k v) l = if l = k then some v else get? t l := by
  by_cases hk : k ∈ keys t
  · rw [insert, has_iff.2 hk, if_pos rfl, get?_replace]
    rw [← has_iff, has, Option.isSome_iff_exists] at hk
    rcases hk with ⟨w, hw⟩
    rw [hw, Option.map_some]
  · rw [insert_of_notMem hk, get?_append, get?_cons]
    by_cases hl : l = k
    · simp [hl, get?_eq_none hk]
    · simp [hl, get?]

theorem get?_set (t : Table α) (k : Text) (v : α) (l : Text) :
    get? (set t k v) l = if l = k then some v else get? t l := by
  by_cases hk : k ∈ keys t
  · have hinsert : insert t k v = replace t k v := by rw [insert, has_iff.2 hk, if_pos rfl]
    rw [set_of_has hk, ← hinsert, get?_insert]
  · cases hp : Text.position? k with
    | none => rw [set_named hk hp, ← insert_of_notMem hk, get?_insert]
    | some p =>
      have hsplit := t.takeWhile_append_dropWhile (p := fun e => isBelow p e.1)
      rw [set_position hk hp, get?_append, get?_cons]
      by_cases hl : l = k
      · have hfirst : k ∉ keys (t.takeWhile fun e => isBelow p e.1) := fun h =>
          hk (((List.takeWhile_sublist _).map _).subset h)
        rw [if_pos hl, if_pos hl, hl, get?_eq_none hfirst, Option.none_or]
      · rw [if_neg hl, if_neg hl, ← get?_append, hsplit]

/-! ## Entries put in one after the other -/

/-- The last value of a key. -/
def last? (t : Table α) (k : Text) : Option α :=
  get? t.reverse k

@[simp] theorem last?_nil (k : Text) : last? ([] : Table α) k = none := rfl

theorem last?_append : last? (t ++ s) k = (last? s k).or (last? t k) := by
  rw [last?, List.reverse_append, get?_append, last?, last?]

theorem last?_cons (e : Text × α) (t : Table α) (k : Text) :
    last? (e :: t) k = (last? t k).or (if k = e.1 then some e.2 else none) := by
  rw [← List.singleton_append, last?_append, last?, last?, List.reverse_singleton, get?_cons]
  rfl

theorem mem_of_last? (h : last? t k = some v) : (k, v) ∈ t :=
  List.mem_reverse.1 (mem_of_get? h)

/-- After entries have been put in, a key has the last value that they give it, and the value from
before if they give it none. -/
theorem get?_foldl {put : Table α → Text → α → Table α}
    (hput : ∀ t k v l, get? (put t k v) l = if l = k then some v else get? t l)
    (t es : Table α) (k : Text) :
    get? (es.foldl (fun m e => put m e.1 e.2) t) k = (last? es k).or (get? t k) := by
  induction es generalizing t with
  | nil => rfl
  | cons e es ih =>
    rw [List.foldl_cons, ih, hput, last?_cons, Option.or_assoc]
    by_cases hk : k = e.1 <;> simp [hk]

theorem get?_foldl_insert (t es : Table α) (k : Text) :
    get? (es.foldl (fun m e => insert m e.1 e.2) t) k = (last? es k).or (get? t k) :=
  get?_foldl get?_insert t es k

theorem get?_merge (t es : Table α) (k : Text) :
    get? (merge t es) k = (last? es k).or (get? t k) :=
  get?_foldl get?_set t es k

theorem nodup_keys_merge (hkeys : (keys t).Nodup) (es : Table α) : (keys (merge t es)).Nodup := by
  induction es generalizing t with
  | nil => exact hkeys
  | cons e es ih => exact ih (nodup_keys_set hkeys)

theorem last?_eq_get? (hkeys : (keys t).Nodup) (k : Text) : last? t k = get? t k :=
  (get?_perm hkeys (List.reverse_perm t).symm k).symm

/-- In the table of some entries each key has the last value that they give it. -/
theorem last?_ofList (es : Table α) (k : Text) : last? (ofList es) k = last? es k := by
  have hkeys : (keys (ofList es)).Nodup := nodup_keys_merge (t := []) List.nodup_nil es
  rw [last?_eq_get? hkeys, ofList, get?_merge]
  exact Option.or_none

theorem mem_of_mem_ofList {e : Text × α} (h : e ∈ ofList es) : e ∈ es := by
  have hkeys : (keys (ofList es)).Nodup := nodup_keys_merge (t := []) List.nodup_nil es
  apply mem_of_last?
  rw [← last?_ofList, last?_eq_get? hkeys, get?_eq_some_iff hkeys]
  exact h

/-! ## Selected and translated entries -/

theorem get?_filter_ne (t : Table α) (l k : Text) :
    get? (t.filter fun e => e.1 != l) k = if k = l then none else get? t k := by
  induction t with
  | nil => simp [get?]
  | cons e t ih =>
    by_cases he : e.1 = l
    · rw [List.filter_cons_of_neg (by simpa using he), ih, get?_cons]
      by_cases hk : k = l <;> simp [hk, he]
    · rw [List.filter_cons_of_pos (by simpa using he), get?_cons, get?_cons, ih]
      by_cases hk : k = e.1 <;> simp [hk, he]

theorem last?_filter_ne (t : Table α) (l k : Text) :
    last? (t.filter fun e => e.1 != l) k = if k = l then none else last? t k := by
  rw [last?, ← List.filter_reverse, get?_filter_ne, last?]

/-- A table that is translated entry by entry answers with the translation of what the original
one answers. -/
theorem get?_of_forall₂ {g : Text → α → Option β} {s : Table β}
    (h : List.Forall₂ (fun e f => f.1 = e.1 ∧ g e.1 e.2 = some f.2) t s) (k : Text) :
    get? s k = (get? t k).bind (g k) := by
  induction h with
  | nil => rfl
  | @cons e f t s hfirst _ ih =>
    rw [get?_cons, get?_cons, hfirst.1, ih]
    by_cases hk : k = e.1
    · simp [hk, hfirst.2]
    · simp [hk]

theorem last?_of_forall₂ {g : Text → α → Option β} {s : Table β}
    (h : List.Forall₂ (fun e f => f.1 = e.1 ∧ g e.1 e.2 = some f.2) t s) (k : Text) :
    last? s k = (last? t k).bind (g k) :=
  get?_of_forall₂ (List.forall₂_reverse_iff.2 h) k

end TreeExtraction.Table
