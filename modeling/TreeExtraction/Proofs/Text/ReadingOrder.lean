import TreeExtraction.Proofs.Text.Table

/-! # Tables that extend another one

Entries that are set in a table keep its reading order: names of positions come first in ascending
order, then the keys of the table, then the keys that were added. So a table that grew out of
another one is the merge of the other one with itself.
-/

namespace TreeExtraction

theorem Text.position?_injective {k l : Text} {p : Nat} (hk : position? k = some p)
    (hl : position? l = some p) : k = l := by
  have hname {t : Text} (ht : position? t = some p) : ofNat p = t := by
    rw [position?] at ht
    split at ht
    · next h =>
      simp only [Bool.and_eq_true, beq_iff_eq] at h
      rw [← Option.some.inj ht]
      exact h.1.2
    · cases ht
  rw [← hname hk, hname hl]

namespace Table

variable {α : Type} {t base rest es : Table α} {k : Text} {v : α} {p : Nat}

/-- Whether no key names a position. -/
def AreNamed (ks : List Text) : Prop :=
  ∀ k ∈ ks, Text.position? k = none

/-- The position that a key names. -/
def rank (k : Text) : Nat :=
  (Text.position? k).getD 0

/-- Whether all keys name positions, in ascending order. -/
def AreAscending (ks : List Text) : Prop :=
  (∀ k ∈ ks, (Text.position? k).isSome = true) ∧ ks.Pairwise fun k l => rank k < rank l

/-- Whether a table has the keys of another one in their order, behind names of positions and before
further keys. -/
def Extends (base t : Table α) : Prop :=
  ∃ positions old added, t = positions ++ (old ++ added) ∧ AreAscending (keys positions) ∧
    keys old = keys base ∧ AreNamed (keys added) ∧ (keys t).Nodup

theorem rank_eq (h : Text.position? k = some p) : rank k = p := by
  rw [rank, h]
  rfl

theorem isBelow_iff {q : Nat} (h : Text.position? k = some q) : isBelow p k = true ↔ q < p := by
  rw [isBelow, h]
  exact decide_eq_true_iff

theorem isBelow_of_named (h : Text.position? k = none) : isBelow p k = false := by
  rw [isBelow, h]
  rfl

theorem takeWhile_isBelow (hrest : AreNamed (keys rest)) :
    (t ++ rest).takeWhile (fun e => isBelow p e.1) = t.takeWhile fun e => isBelow p e.1 := by
  induction t with
  | nil =>
    cases rest with
    | nil => rfl
    | cons e rest =>
      exact List.takeWhile_cons_of_neg (by simp [isBelow_of_named (hrest e.1 (by simp))])
  | cons e t ih =>
    rw [List.cons_append, List.takeWhile_cons, List.takeWhile_cons, ih]

theorem dropWhile_isBelow (hrest : AreNamed (keys rest)) :
    (t ++ rest).dropWhile (fun e => isBelow p e.1) =
      (t.dropWhile fun e => isBelow p e.1) ++ rest := by
  have hsplit := (t ++ rest).takeWhile_append_dropWhile (p := fun e => isBelow p e.1)
  rw [takeWhile_isBelow hrest] at hsplit
  have hsame : t.takeWhile (fun e => isBelow p e.1) ++
      ((t.dropWhile fun e => isBelow p e.1) ++ rest) = t ++ rest := by
    rw [← List.append_assoc, List.takeWhile_append_dropWhile]
  exact List.append_cancel_left (hsplit.trans hsame.symm)

/-! ## Setting an entry -/

theorem lt_rank_of_mem_dropWhile (ht : AreAscending (keys t)) (hk : Text.position? k = some p)
    (hnew : k ∉ keys t) {e : Text × α} (he : e ∈ t.dropWhile fun e => isBelow p e.1) :
    p < rank e.1 := by
  induction t with
  | nil => cases he
  | cons f t ih =>
    rcases ht with ⟨hsome, hpairs⟩
    rw [keys_cons, List.pairwise_cons] at hpairs
    rw [keys_cons, List.mem_cons, not_or] at hnew
    by_cases hf : isBelow p f.1 = true
    · rw [List.dropWhile_cons, if_pos hf] at he
      exact ih ⟨fun l hl => hsome l (List.mem_cons_of_mem _ hl), hpairs.2⟩ hnew.2 he
    · rw [List.dropWhile_cons, if_neg hf] at he
      rcases Option.isSome_iff_exists.1 (hsome f.1 List.mem_cons_self) with ⟨q, hq⟩
      have hne : q ≠ p := by
        rintro rfl
        exact hnew.1 (Text.position?_injective hk hq)
      have hfirst : p < rank f.1 := by
        rw [isBelow_iff hq] at hf
        rw [rank_eq hq]
        omega
      rcases List.mem_cons.1 he with rfl | he
      · exact hfirst
      · exact hfirst.trans (hpairs.1 e.1 (List.mem_map_of_mem he))

theorem rank_lt_of_mem_takeWhile (ht : AreAscending (keys t)) {e : Text × α}
    (he : e ∈ t.takeWhile fun e => isBelow p e.1) : rank e.1 < p := by
  have hmem : e ∈ t := (List.takeWhile_sublist _).subset he
  rcases Option.isSome_iff_exists.1 (ht.1 e.1 (List.mem_map_of_mem hmem)) with ⟨q, hq⟩
  have hbelow : isBelow p e.1 = true := by simpa using List.mem_takeWhile_imp he
  rw [rank_eq hq]
  exact (isBelow_iff hq).1 hbelow

/-- A new name of a position is put between the smaller and the greater ones. -/
theorem areAscending_set (ht : AreAscending (keys t)) (hk : Text.position? k = some p)
    (hnew : k ∉ keys t) :
    AreAscending (keys (t.takeWhile (fun e => isBelow p e.1) ++
      (k, v) :: t.dropWhile fun e => isBelow p e.1)) := by
  have hrank : rank k = p := rank_eq hk
  have hbelow : ∀ l ∈ keys (t.takeWhile fun e => isBelow p e.1), rank l < p := by
    intro l hl
    rcases List.mem_map.1 hl with ⟨e, he, rfl⟩
    exact rank_lt_of_mem_takeWhile ht he
  have habove : ∀ l ∈ keys (t.dropWhile fun e => isBelow p e.1), p < rank l := by
    intro l hl
    rcases List.mem_map.1 hl with ⟨e, he, rfl⟩
    exact lt_rank_of_mem_dropWhile ht hk hnew he
  have htake : (keys (t.takeWhile fun e => isBelow p e.1)).Sublist (keys t) :=
    (List.takeWhile_sublist _).map _
  have hdrop : (keys (t.dropWhile fun e => isBelow p e.1)).Sublist (keys t) :=
    (List.dropWhile_sublist _).map _
  rw [keys_append, keys_cons]
  constructor
  · intro l hl
    rcases List.mem_append.1 hl with hl | hl
    · exact ht.1 l (htake.subset hl)
    · rcases List.mem_cons.1 hl with rfl | hl
      · rw [hk]
        rfl
      · exact ht.1 l (hdrop.subset hl)
  · rw [List.pairwise_append, List.pairwise_cons]
    refine ⟨ht.2.sublist htake, ⟨fun l hl => hrank.symm ▸ habove l hl, ht.2.sublist hdrop⟩, ?_⟩
    intro a ha b hb
    rcases List.mem_cons.1 hb with rfl | hb
    · exact hrank.symm ▸ hbelow a ha
    · exact (hbelow a ha).trans (habove b hb)

theorem nodup_keys_set (h : (keys t).Nodup) : (keys (set t k v)).Nodup := by
  by_cases hk : k ∈ keys t
  · rw [set_of_has hk, keys_replace]
    exact h
  · rw [(keys_perm (set_perm hk)).nodup_iff, keys_cons, List.nodup_cons]
    exact ⟨hk, h⟩

/-- A table goes on extending another one when an entry is set in it. -/
theorem Extends.set (hbase : AreNamed (keys base)) (h : Extends base t) :
    Extends base (set t k v) := by
  have hnodup : (keys (Table.set t k v)).Nodup := by
    rcases h with ⟨-, -, -, -, -, -, -, hkeys⟩
    exact nodup_keys_set hkeys
  rcases h with ⟨positions, old, added, rfl, hpositions, hold, hadded, -⟩
  by_cases hk : k ∈ keys (positions ++ (old ++ added))
  · refine ⟨replace positions k v, replace old k v, replace added k v, ?_, ?_, ?_, ?_, hnodup⟩
    · rw [set_of_has hk, replace_append, replace_append]
    · rwa [keys_replace]
    · rwa [keys_replace]
    · rwa [keys_replace]
  · cases hp : Text.position? k with
    | none =>
      refine ⟨positions, old, added ++ [(k, v)], ?_, hpositions, hold, ?_, hnodup⟩
      · rw [set_named hk hp, List.append_assoc, List.append_assoc]
      · intro l hl
        rw [keys_append, List.mem_append] at hl
        rcases hl with hl | hl
        · exact hadded l hl
        · rw [List.mem_singleton.1 hl]
          exact hp
    | some p =>
      have hrest : AreNamed (keys (old ++ added)) := by
        intro l hl
        rw [keys_append, hold, List.mem_append] at hl
        exact hl.elim (hbase l) (hadded l)
      have hnew : k ∉ keys positions := by
        rw [keys_append, List.mem_append, not_or] at hk
        exact hk.1
      refine ⟨_, old, added, ?_, areAscending_set hpositions hp hnew (v := v), hold, hadded, hnodup⟩
      rw [set_position hk hp, takeWhile_isBelow hrest, dropWhile_isBelow hrest, List.append_assoc,
        List.cons_append]

theorem Extends.merge (hbase : AreNamed (keys base)) (h : Extends base t) (es : Table α) :
    Extends base (merge t es) := by
  induction es generalizing t with
  | nil => exact h
  | cons e es ih => exact ih (h.set hbase)

theorem extends_self (hbase : (keys base).Nodup) : Extends base base :=
  ⟨[], base, [], (List.append_nil _).symm, ⟨fun _ hk => (nomatch hk), List.Pairwise.nil⟩, rfl,
    fun _ hk => (nomatch hk), hbase⟩

/-! ## Merging an extension -/

/-- Ascending names of positions are put in front of named keys. -/
theorem merge_positions (done : Table α) (hes : AreAscending (keys (done ++ es)))
    (hrest : AreNamed (keys rest)) : merge (done ++ rest) es = done ++ es ++ rest := by
  induction es generalizing done with
  | nil => rw [merge_nil, List.append_nil]
  | cons e es ih =>
    rcases e with ⟨k, v⟩
    rcases Option.isSome_iff_exists.1 (hes.1 k (by simp)) with ⟨p, hp⟩
    have hsplit : done ++ (k, v) :: es = (done ++ [(k, v)]) ++ es := by simp
    have hdone : ∀ f ∈ done, isBelow p f.1 = true := by
      intro f hf
      obtain ⟨q, hq⟩ := Option.isSome_iff_exists.1 (hes.1 f.1 (by
        rw [keys_append, List.mem_append]
        exact .inl (List.mem_map_of_mem hf)))
      have hlt := (List.pairwise_append.1 (keys_append (t := done) ▸ hes.2)).2.2 f.1
        (List.mem_map_of_mem hf) k (by simp)
      rw [rank_eq hq, rank_eq hp] at hlt
      exact (isBelow_iff hq).2 hlt
    have hnew : k ∉ keys (done ++ rest) := by
      rw [keys_append, List.mem_append, not_or]
      constructor
      · intro hk
        rcases List.mem_map.1 hk with ⟨f, hf, rfl⟩
        exact absurd ((isBelow_iff hp).1 (hdone f hf)) (Nat.lt_irrefl _)
      · intro hk
        rw [hrest k hk] at hp
        cases hp
    have hset : set (done ++ rest) k v = done ++ [(k, v)] ++ rest := by
      rw [set_position hnew hp, takeWhile_isBelow hrest, dropWhile_isBelow hrest,
        List.takeWhile_eq_self_iff.2 hdone, List.dropWhile_eq_nil_iff.2 hdone]
      simp
    rw [merge_cons, hset, ih _ (hsplit ▸ hes), hsplit]

/-- Entries under the keys that are there take their places. -/
theorem merge_same_keys {done : Table α} (hkeys : keys es = keys t)
    (hnodup : (keys (done ++ es)).Nodup) : merge (done ++ t) es = done ++ es := by
  induction es generalizing done t with
  | nil =>
    rw [List.map_eq_nil_iff.1 hkeys.symm]
    rfl
  | cons e es ih =>
    rcases e with ⟨k, v⟩
    cases t with
    | nil => cases hkeys
    | cons f t =>
      rcases f with ⟨l, w⟩
      rcases List.cons.inj hkeys with ⟨rfl, hrest⟩
      have hsplit : done ++ (k, v) :: es = (done ++ [(k, v)]) ++ es := by simp
      have hdone : k ∉ keys done := notMem_keys hnodup
      have ht : k ∉ keys t := by
        rw [keys_append, List.nodup_append, keys_cons, List.nodup_cons] at hnodup
        rw [keys, ← hrest]
        exact hnodup.2.1.1
      have hset : set (done ++ (k, w) :: t) k v = done ++ [(k, v)] ++ t := by
        rw [set_of_has (by simp), replace_append, replace_of_notMem hdone,
          ← List.singleton_append, replace_append, replace_of_notMem ht]
        simp [replace]
      rw [merge_cons, hset, ih hrest (hsplit ▸ hnodup), hsplit]

/-- A table that extends another one is the merge of the other one with itself. -/
theorem Extends.merge_eq (hbase : AreNamed (keys base)) (h : Extends base t) :
    Table.merge base t = t := by
  rcases h with ⟨positions, old, added, rfl, hpositions, hold, hadded, hnodup⟩
  have hfront : Table.merge base positions = positions ++ base :=
    merge_positions [] hpositions hbase
  have hmiddle : Table.merge (positions ++ base) old = positions ++ old := by
    refine merge_same_keys hold (hnodup.sublist ?_)
    rw [← List.append_assoc, keys_append (t := positions ++ old)]
    exact List.sublist_append_left _ _
  have hend : Table.merge (positions ++ old) added = positions ++ old ++ added :=
    merge_named (by rwa [List.append_assoc]) fun e he => hadded e.1 (List.mem_map_of_mem he)
  rw [merge_append, merge_append, hfront, hmiddle, hend, List.append_assoc]

end Table

end TreeExtraction
