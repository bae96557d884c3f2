import TreeExtraction.Text.Basic

/-! # Counting code points

A unit in front of a text joins its first code point or makes one of its own. So texts put side by
side have at most as many code points as they have apart: a surrogate that ends one text may find
its partner at the start of the next.
-/

namespace TreeExtraction.Text

theorem length_codePoints_cons_cons (u v : UInt16) (t : Text) :
    (codePoints (u :: v :: t)).length =
      if isLeading u && isTrailing v then (codePoints t).length + 1
      else (codePoints (v :: t)).length + 1 := by
  rw [codePoints]
  split <;> simp

theorem length_codePoints_cons_bounds (t : Text) (u : UInt16) :
    (codePoints t).length ≤ (codePoints (u :: t)).length ∧
      (codePoints (u :: t)).length ≤ (codePoints t).length + 1 := by
  induction t generalizing u with
  | nil => simp [codePoints]
  | cons v t ih =>
    rw [length_codePoints_cons_cons]
    split
    · -- The pair takes the first unit of the text away, which counted for one or for nothing.
      have hrest := ih v
      omega
    · omega

/-- Code points may merge where two texts meet, and none come up. -/
theorem length_codePoints_append_le (s t : Text) :
    (codePoints (s ++ t)).length ≤ (codePoints s).length + (codePoints t).length := by
  fun_induction codePoints s with
  | case1 => simp
  | case2 u =>
    have hbounds := length_codePoints_cons_bounds t u
    simp only [List.singleton_append, List.length_singleton]
    omega
  | case3 u v rest hpair ih =>
    rw [List.cons_append, List.cons_append, length_codePoints_cons_cons, if_pos hpair,
      List.length_cons]
    omega
  | case4 u v rest hpair ih =>
    rw [List.cons_append, List.cons_append, length_codePoints_cons_cons, if_neg hpair,
      List.length_cons]
    rw [List.cons_append] at ih
    omega

theorem length_codePoints_of_mem {t p : Text} (h : p ∈ codePoints t) :
    (codePoints p).length = 1 := by
  fun_induction codePoints t with
  | case1 => cases h
  | case2 u =>
    rw [List.mem_singleton] at h
    simp [h, codePoints]
  | case3 u v rest hpair ih =>
    rcases List.mem_cons.1 h with rfl | h
    · rw [length_codePoints_cons_cons, if_pos hpair]
      rfl
    · exact ih h
  | case4 u v rest hpair ih =>
    rcases List.mem_cons.1 h with rfl | h
    · rfl
    · exact ih h

/-- Some code points of a text, put side by side, are at most as many. -/
theorem length_codePoints_flatten_le (ps : List Text) (h : ∀ p ∈ ps, (codePoints p).length = 1) :
    (codePoints ps.flatten).length ≤ ps.length := by
  induction ps with
  | nil => simp [codePoints]
  | cons p ps ih =>
    have happend := length_codePoints_append_le p ps.flatten
    have hfirst := h p List.mem_cons_self
    have hrest := ih fun q hq => h q (List.mem_cons_of_mem _ hq)
    rw [List.flatten_cons, List.length_cons]
    omega

theorem length_codePoints_take_le (t : Text) (n : Nat) :
    (codePoints ((codePoints t).take n).flatten).length ≤ n := by
  have hpoints := length_codePoints_flatten_le ((codePoints t).take n) fun p hp =>
    length_codePoints_of_mem (List.mem_of_mem_take hp)
  rw [List.length_take] at hpoints
  omega

end TreeExtraction.Text
