import Mathlib.Data.List.Basic
import TreeExtraction.Text.Casing

/-! # Lower case and upper case within the basic letters

Which texts have a word of basic units for their lower case: those that spell it in letters of
either case. Of all other letters only the Kelvin sign has a basic letter for its lower case. The
upper case of a text of units below 128 is taken unit by unit.
-/

namespace TreeExtraction.Text

/-- The sign of the unit of temperature, a capital letter. -/
def kelvinSign : UInt16 := 0x212A

/-- Capital letters of the basic alphabet. -/
def isCapital (u : UInt16) : Bool :=
  unit 'A' ≤ u && u ≤ unit 'Z'

/-- The units that have a basic unit for their lower case. -/
def isBasic (u : UInt16) : Bool :=
  u.toNat < 128 || u == kelvinSign

/-- Lower case of a basic unit. -/
def lowerUnit (u : UInt16) : UInt16 :=
  if u == kelvinSign then unit 'k' else if isCapital u then u + 32 else u

/-! ## Code points -/

theorem eq_pair_of_mem_codePoints {t p : Text} (h : p ∈ codePoints t) :
    (∃ u, p = [u]) ∨ ∃ u v, p = [u, v] := by
  fun_induction codePoints t with
  | case1 => cases h
  | case2 u => exact .inl ⟨u, List.mem_singleton.1 h⟩
  | case3 u v rest hpair ih =>
    rcases List.mem_cons.1 h with rfl | h
    · exact .inr ⟨u, v, rfl⟩
    · exact ih h
  | case4 u v rest hpair ih =>
    rcases List.mem_cons.1 h with rfl | h
    · exact .inl ⟨u, rfl⟩
    · exact ih h

/-- Basic units are no surrogates. -/
theorem codePoints_of_isBasic {t : Text} (h : ∀ u ∈ t, isBasic u = true) :
    codePoints t = t.map fun u => [u] := by
  fun_induction codePoints t with
  | case1 => rfl
  | case2 u => rfl
  | case3 u v rest hpair ih =>
    have hfirst := h u List.mem_cons_self
    simp only [isBasic, kelvinSign, isLeading, Bool.or_eq_true, decide_eq_true_eq, beq_iff_eq,
      Bool.and_eq_true, UInt16.le_iff_toNat_le, ← UInt16.toNat_inj] at hfirst hpair
    simp at hfirst hpair
    omega
  | case4 u v rest hpair ih =>
    rw [ih fun w hw => h w (List.mem_cons_of_mem _ hw)]
    rfl

theorem scalar_pair_ge (u v : UInt16) : 0x10000 ≤ scalar [u, v] :=
  Nat.le_trans (Nat.le_add_right _ _) (Nat.le_add_right _ _)

theorem isBasic_of_scalar {t p : Text} {u : UInt16} (hp : p ∈ codePoints t) (hu : u ∈ p)
    (h : scalar p < 128 ∨ scalar p = kelvinSign.toNat) : isBasic u = true := by
  rcases eq_pair_of_mem_codePoints hp with ⟨v, rfl⟩ | ⟨v, w, rfl⟩
  · obtain rfl := List.mem_singleton.1 hu
    rw [isBasic, Bool.or_eq_true, decide_eq_true_eq, beq_iff_eq, ← UInt16.toNat_inj]
    exact h
  · have hpair := scalar_pair_ge v w
    have hkelvin : kelvinSign.toNat = 0x212A := rfl
    omega

theorem exists_mem_encode {c : Nat} (h : 128 ≤ c) : ∃ u ∈ encode c, 128 ≤ u.toNat := by
  rw [encode]
  split
  · have hunit : c.toUInt16.toNat = c := by
      rw [Nat.toUInt16, UInt16.toNat_ofNat']
      omega
    exact ⟨_, List.mem_singleton_self _, by omega⟩
  · have hunit : (0xDC00 + (c - 0x10000) % 0x400).toUInt16.toNat =
        0xDC00 + (c - 0x10000) % 0x400 := by
      rw [Nat.toUInt16, UInt16.toNat_ofNat']
      omega
    exact ⟨_, List.mem_cons_of_mem _ (List.mem_singleton_self _), by omega⟩

/-! ## Tables -/

theorem lowerOf_of_lt : ∀ c < 128,
    (Casing.lowerOf c).flatMap encode = [lowerUnit c.toUInt16] := by
  decide +kernel

theorem lowerOf_kelvinSign : (Casing.lowerOf kelvinSign.toNat).flatMap encode = [unit 'k'] := by
  decide +kernel

theorem lowerShifts_leave_basic : ∀ s ∈ Casing.lowerShifts,
    s.last < 128 ∨ 128 ≤ (s.first : Int) + s.distance ∨
      s.first = kelvinSign.toNat ∧ s.last = kelvinSign.toNat := by
  decide +kernel

/-- Beyond the basic units, only the Kelvin sign goes down to one. -/
theorem exists_mem_lowerOf {c : Nat} (h : 128 ≤ c) (hkelvin : c ≠ kelvinSign.toNat) :
    ∃ d ∈ Casing.lowerOf c, 128 ≤ d := by
  rw [Casing.lowerOf, Casing.mapWith]
  split
  · next cs hcs =>
    rw [Casing.lowerExpansions, List.lookup_cons] at hcs
    split at hcs
    · cases hcs
      exact ⟨0x307, by simp, by decide⟩
    · cases hcs
  · split
    · next s hs =>
      have hcovers := List.find?_some hs
      simp only [Casing.Shift.covers, Bool.and_eq_true, decide_eq_true_eq] at hcovers
      refine ⟨_, List.mem_singleton_self _, ?_⟩
      rcases lowerShifts_leave_basic s (List.mem_of_find?_eq_some hs) with hlast | himage | hone
      · omega
      · omega
      · omega
    · exact ⟨c, List.mem_singleton_self _, h⟩

/-- Whatever stands around it, a code point beyond the basic units stays beyond them. -/
theorem exists_mem_lowerFrom {c : Nat} (previous : List Nat) {cs : List Nat} (hc : c ∈ cs)
    (h : 128 ≤ c) (hkelvin : c ≠ kelvinSign.toNat) :
    ∃ d ∈ Casing.lowerFrom previous cs, 128 ≤ d := by
  induction cs generalizing previous with
  | nil => cases hc
  | cons b cs ih =>
    rw [Casing.lowerFrom]
    rcases List.mem_cons.1 hc with rfl | hc
    · split
      · exact ⟨Casing.finalSigma, by simp, by decide⟩
      · obtain ⟨d, hd, hle⟩ := exists_mem_lowerOf h hkelvin
        exact ⟨d, List.mem_append_left _ hd, hle⟩
    · obtain ⟨d, hd, hle⟩ := ih (b :: previous) hc
      exact ⟨d, List.mem_append_right _ hd, hle⟩

/-! ## Texts -/

theorem lowerOf_toNat {u : UInt16} (h : isBasic u = true) :
    (Casing.lowerOf u.toNat).flatMap encode = [lowerUnit u] := by
  simp only [isBasic, Bool.or_eq_true, decide_eq_true_eq, beq_iff_eq] at h
  rcases h with h | rfl
  · simpa using lowerOf_of_lt u.toNat h
  · rw [lowerOf_kelvinSign]
    rfl

theorem lowerFrom_of_isBasic {t : Text} (h : ∀ u ∈ t, isBasic u = true) (previous : List Nat) :
    (Casing.lowerFrom previous (t.map UInt16.toNat)).flatMap encode = t.map lowerUnit := by
  induction t generalizing previous with
  | nil => rfl
  | cons u t ih =>
    have hu := h u List.mem_cons_self
    have hsigma : (u.toNat == Casing.sigma) = false := by
      simp only [isBasic, kelvinSign, Bool.or_eq_true, decide_eq_true_eq, beq_iff_eq,
        ← UInt16.toNat_inj] at hu
      simp only [Casing.sigma, beq_eq_false_iff_ne]
      simp at hu
      omega
    rw [List.map_cons, Casing.lowerFrom, hsigma, Bool.false_and, Bool.false_and,
      if_neg Bool.false_ne_true, List.flatMap_append, lowerOf_toNat hu,
      ih fun v hv => h v (List.mem_cons_of_mem _ hv)]
    rfl

theorem toLower_of_isBasic {t : Text} (h : ∀ u ∈ t, isBasic u = true) :
    toLower t = t.map lowerUnit := by
  have hscalars : (codePoints t).map scalar = t.map UInt16.toNat := by
    rw [codePoints_of_isBasic h, List.map_map]
    rfl
  rw [toLower, hscalars, lowerFrom_of_isBasic h]

theorem isBasic_of_toLower {t : Text} (h : ∀ u ∈ toLower t, u.toNat < 128) :
    ∀ u ∈ t, isBasic u = true := by
  intro u hu
  rw [← flatten_codePoints t] at hu
  obtain ⟨p, hp, hup⟩ := List.mem_flatten.1 hu
  by_cases hscalar : scalar p < 128 ∨ scalar p = kelvinSign.toNat
  · exact isBasic_of_scalar hp hup hscalar
  · -- Otherwise the code point leaves a unit in the lower case that is not basic.
    have hmem : scalar p ∈ (codePoints t).map scalar := List.mem_map_of_mem hp
    obtain ⟨d, hd, hle⟩ :=
      exists_mem_lowerFrom [] hmem (by omega) (fun heq => hscalar (.inr heq))
    obtain ⟨v, hv, hvle⟩ := exists_mem_encode hle
    have hlow := h v (List.mem_flatMap.2 ⟨d, hd, hv⟩)
    omega

theorem isBasic_of_lowerUnit {u : UInt16} (h : (lowerUnit u).toNat < 128) : isBasic u = true := by
  rw [lowerUnit] at h
  rw [isBasic, Bool.or_eq_true, decide_eq_true_eq]
  split at h
  · next hkelvin => exact .inr hkelvin
  · split at h
    · next hcapital =>
      simp only [isCapital, Bool.and_eq_true, decide_eq_true_eq, UInt16.le_iff_toNat_le] at hcapital
      simp [unit] at hcapital
      omega
    · exact .inl h

/-- A text has a word of basic units for its lower case exactly if it spells the word. -/
theorem toLower_eq_iff {t word : Text} (hword : ∀ u ∈ word, u.toNat < 128) :
    toLower t = word ↔ t.map lowerUnit = word := by
  constructor
  · intro h
    have hbasic := isBasic_of_toLower (t := t) (by rw [h]; exact hword)
    rw [← toLower_of_isBasic hbasic, h]
  · intro h
    have hbasic : ∀ u ∈ t, isBasic u = true := fun u hu =>
      isBasic_of_lowerUnit (hword _ (h ▸ List.mem_map_of_mem hu))
    rw [toLower_of_isBasic hbasic, h]

theorem isCapital_lowerUnit (u : UInt16) : isCapital (lowerUnit u) = false := by
  rw [← Bool.not_eq_true, lowerUnit]
  split
  · decide
  · split
    · next hcapital =>
      simp only [isCapital, Bool.and_eq_true, decide_eq_true_eq, UInt16.le_iff_toNat_le] at *
      simp [unit] at *
      omega
    · next hcapital => exact hcapital

/-! ## Upper case -/

/-- Upper case of a unit below 128. -/
def upperUnit (u : UInt16) : UInt16 :=
  if unit 'a' ≤ u && u ≤ unit 'z' then u - 32 else u

theorem upperOf_of_lt : ∀ c < 128,
    (Casing.upperOf c).flatMap encode = [upperUnit c.toUInt16] := by
  decide +kernel

theorem upperOf_toNat {u : UInt16} (h : u.toNat < 128) :
    (Casing.upperOf u.toNat).flatMap encode = [upperUnit u] := by
  have hunit : u.toNat.toUInt16 = u := UInt16.ofNat_toNat
  have hupper := upperOf_of_lt u.toNat h
  rwa [hunit] at hupper

/-- Units below 128 are raised one by one. -/
theorem toUpper_of_lt {t : Text} (h : ∀ u ∈ t, u.toNat < 128) : toUpper t = t.map upperUnit := by
  have hbasic : ∀ u ∈ t, isBasic u = true := by
    intro u hu
    rw [isBasic, Bool.or_eq_true, decide_eq_true_eq]
    exact .inl (h u hu)
  rw [toUpper, codePoints_of_isBasic hbasic, List.flatMap_map, List.map_eq_flatMap]
  apply List.flatMap_congr
  intro u hu
  exact upperOf_toNat (h u hu)

end TreeExtraction.Text
