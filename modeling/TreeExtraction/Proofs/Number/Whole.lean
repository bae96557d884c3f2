import Mathlib.Data.Nat.Log
import Mathlib.Tactic.Positivity
import Mathlib.Tactic.Ring
import TreeExtraction.Number.Arithmetic

/-! # Whole numbers

Rounding leaves every magnitude alone, so a natural number below `2 ^ 53` is represented exactly,
and no other whole number is rounded to it.
-/

namespace TreeExtraction

namespace Magnitude

/-- One is a power of two in units, far from the least and from the greatest exponent. The exponent
is not spelled out, so that nothing evaluates the power. -/
theorem exists_unitsPerOne_eq : ∃ w, 1000 ≤ w ∧ w ≤ 1500 ∧ unitsPerOne = 2 ^ w := by
  obtain ⟨w, hge, hle, hw⟩ : ∃ w, 1000 ≤ w ∧ w ≤ 1500 ∧ unitsPerOne = Nat.pow 2 w :=
    ⟨1074, by decide, by decide, by unfold unitsPerOne; rfl⟩
  exact ⟨w, hge, hle, hw⟩

theorem unitsPerOne_pos : 0 < unitsPerOne := by
  rcases exists_unitsPerOne_eq with ⟨w, -, -, hw⟩
  rw [hw]
  positivity

theorem scaled_eq (x : Magnitude) : x.scaled = x.mantissa * 2 ^ x.exponent := rfl

private theorem scaled_lt_of_exponent_lt {x y : Magnitude} (h : x.exponent < y.exponent) :
    x.scaled < y.scaled := by
  have hy : 2 ^ 52 ≤ y.mantissa := by
    rcases y.normal with hn | h0
    · exact hn
    · omega
  calc x.scaled = x.mantissa * 2 ^ x.exponent := scaled_eq x
    _ < 2 ^ 53 * 2 ^ x.exponent := Nat.mul_lt_mul_of_pos_right x.mantissa_lt (by positivity)
    _ = 2 ^ 52 * 2 ^ (x.exponent + 1) := by rw [Nat.pow_succ, Nat.pow_succ]; ring
    _ ≤ y.mantissa * 2 ^ y.exponent :=
      Nat.mul_le_mul hy (Nat.pow_le_pow_right (by decide) h)

/-- Each magnitude has one form. -/
theorem scaled_injective : Function.Injective scaled := by
  intro x y h
  have he : x.exponent = y.exponent := by
    rcases Nat.lt_trichotomy x.exponent y.exponent with hlt | heq | hgt
    · exact absurd h (Nat.ne_of_lt (scaled_lt_of_exponent_lt hlt))
    · exact heq
    · exact absurd h.symm (Nat.ne_of_lt (scaled_lt_of_exponent_lt hgt))
  have hm : x.mantissa = y.mantissa := by
    rw [scaled_eq, scaled_eq, he] at h
    exact Nat.eq_of_mul_eq_mul_right (by positivity) h
  cases x
  cases y
  simp_all

theorem roundEven_mul (q : Nat) {d : Nat} (hd : 0 < d) : roundEven (q * d) d = q := by
  simp [roundEven, hd]

theorem div_le_roundEven (a d : Nat) : a / d ≤ roundEven a d := by
  unfold roundEven
  split_ifs <;> omega

theorem ofParts?_self (x : Magnitude) : ofParts? x.mantissa x.exponent = some x := by
  rw [ofParts?, dif_pos ⟨x.mantissa_lt, x.exponent_le, x.normal⟩]

theorem log2_scaled (x : Magnitude) : x.scaled.log2 - 52 = x.exponent := by
  rcases x.normal with hn | h0
  · have hne : x.scaled ≠ 0 := by
      rw [scaled_eq]
      exact Nat.mul_ne_zero (by omega) (by positivity)
    have hlog : x.scaled.log2 = 52 + x.exponent := by
      rw [Nat.log2_eq_iff hne, scaled_eq]
      constructor
      · rw [Nat.pow_add]
        exact Nat.mul_le_mul_right _ hn
      · rw [show 52 + x.exponent + 1 = 53 + x.exponent by omega, Nat.pow_add]
        exact Nat.mul_lt_mul_of_pos_right x.mantissa_lt (by positivity)
    omega
  · have hlt : x.scaled < 2 ^ 53 := by
      rw [scaled_eq, h0, Nat.pow_zero, Nat.mul_one]
      exact x.mantissa_lt
    by_cases hz : x.scaled = 0
    · rw [hz, h0]
      rfl
    · have := (Nat.log2_lt hz).2 hlt
      omega

/-- Rounding leaves magnitudes alone. -/
theorem nearest_scaled (x : Magnitude) {d : Nat} (hd : 0 < d) :
    nearest (x.scaled * d) d = some x := by
  have hround : roundEven (x.scaled * d) (d * 2 ^ x.exponent) = x.mantissa := by
    rw [scaled_eq, Nat.mul_assoc, Nat.mul_comm (2 ^ x.exponent) d]
    exact roundEven_mul _ (by positivity)
  have hne : x.mantissa ≠ 0x20000000000000 := Nat.ne_of_lt x.mantissa_lt
  have hunfold : nearest (x.scaled * d) d =
      if roundEven (x.scaled * d) (d * 2 ^ (x.scaled.log2 - 52)) = 0x20000000000000 then
        ofParts? 0x10000000000000 (x.scaled.log2 - 52 + 1)
      else ofParts? (roundEven (x.scaled * d) (d * 2 ^ (x.scaled.log2 - 52)))
        (x.scaled.log2 - 52) := by
    rw [nearest, Nat.mul_div_cancel _ hd]
    rfl
  rw [hunfold, log2_scaled, hround, if_neg hne, ofParts?_self]

theorem ofParts?_scaled {m e : Nat} {x : Magnitude} (h : ofParts? m e = some x) :
    x.scaled = m * 2 ^ e := by
  unfold ofParts? at h
  split at h
  · cases h
    rfl
  · cases h

/-- Rounding does not fall below the leading power of two. -/
theorem pow_log2_le_of_nearest {a : Nat} {x : Magnitude} (ha : 52 ≤ a.log2)
    (h : nearest a 1 = some x) : 2 ^ a.log2 ≤ x.scaled := by
  have hne : a ≠ 0 := by
    rintro rfl
    exact absurd ha (by decide)
  have hquot : 2 ^ 52 ≤ roundEven a (1 * 2 ^ (a.log2 - 52)) := by
    refine Nat.le_trans ?_ (div_le_roundEven _ _)
    rw [Nat.one_mul, Nat.le_div_iff_mul_le (by positivity), ← Nat.pow_add,
      show 52 + (a.log2 - 52) = a.log2 by omega]
    exact Nat.log2_self_le hne
  have hsplit : 2 ^ a.log2 = 2 ^ 52 * 2 ^ (a.log2 - 52) := by
    rw [← Nat.pow_add, show 52 + (a.log2 - 52) = a.log2 by omega]
  have hunfold : nearest a 1 =
      if roundEven a (1 * 2 ^ (a.log2 - 52)) = 0x20000000000000 then
        ofParts? 0x10000000000000 (a.log2 - 52 + 1)
      else ofParts? (roundEven a (1 * 2 ^ (a.log2 - 52))) (a.log2 - 52) := by
    rw [nearest, Nat.div_one]
    rfl
  rw [hunfold] at h
  split at h
  · rw [ofParts?_scaled h, hsplit, Nat.pow_succ]
    have : (0x10000000000000 : Nat) = 2 ^ 52 := by decide
    rw [this]
    exact Nat.mul_le_mul_left _ (Nat.le_mul_of_pos_right _ (by decide))
  · rw [ofParts?_scaled h, hsplit]
    exact Nat.mul_le_mul_right _ hquot

theorem exists_scaled {m e : Nat} (hm : m < 2 ^ 53) (he : e ≤ 2045) :
    ∃ x : Magnitude, x.scaled = m * 2 ^ e := by
  induction e generalizing m with
  | zero => exact ⟨⟨m, 0, hm, by omega, .inr rfl⟩, rfl⟩
  | succ e ih =>
    by_cases hn : 2 ^ 52 ≤ m
    · exact ⟨⟨m, e + 1, hm, he, .inl hn⟩, rfl⟩
    · rcases ih (m := 2 * m) (by omega) (by omega) with ⟨x, hx⟩
      refine ⟨x, ?_⟩
      rw [hx, Nat.pow_succ]
      ring

/-- A whole number below `2 ^ 53` is a magnitude. -/
theorem exists_whole {n : Nat} (hn : n < 2 ^ 53) :
    ∃ x : Magnitude, x.scaled = n * unitsPerOne := by
  rcases exists_unitsPerOne_eq with ⟨w, -, hle, hw⟩
  rw [hw]
  exact exists_scaled hn (by omega)

/-- The magnitude of a whole number below `2 ^ 53` is found by rounding any whole number only if
that is the number itself. -/
theorem nearest_whole_iff {n k : Nat} {x : Magnitude} (hn : n < 2 ^ 53)
    (hx : x.scaled = n * unitsPerOne) : nearest (k * unitsPerOne) 1 = some x ↔ k = n := by
  constructor
  · intro h
    by_cases hk : k < 2 ^ 53
    · rcases exists_whole hk with ⟨y, hy⟩
      have hself := nearest_scaled y Nat.zero_lt_one
      rw [Nat.mul_one, hy, h] at hself
      cases hself
      rw [hx] at hy
      exact (Nat.eq_of_mul_eq_mul_right unitsPerOne_pos hy).symm
    · rcases exists_unitsPerOne_eq with ⟨w, -, -, hw⟩
      have hne : k * unitsPerOne ≠ 0 := Nat.mul_ne_zero (by omega) unitsPerOne_pos.ne'
      have hlog : 53 + w ≤ (k * unitsPerOne).log2 := by
        rw [Nat.le_log2 hne, Nat.pow_add, hw]
        exact Nat.mul_le_mul_right _ (Nat.le_of_not_lt hk)
      have hbig : 2 ^ (53 + w) ≤ x.scaled :=
        Nat.le_trans (Nat.pow_le_pow_right (by decide) hlog)
          (pow_log2_le_of_nearest (by omega) h)
      have hsmall : x.scaled < 2 ^ (53 + w) := by
        rw [hx, Nat.pow_add, ← hw]
        exact Nat.mul_lt_mul_of_pos_right hn unitsPerOne_pos
      exact absurd hbig (Nat.not_le_of_lt hsmall)
  · rintro rfl
    rw [← hx]
    simpa using nearest_scaled x Nat.zero_lt_one

end Magnitude

namespace Number

theorem isWhole_iff {x : Magnitude} :
    x.isWhole = true ↔ x.scaled = x.whole * Magnitude.unitsPerOne := by
  rw [Magnitude.isWhole, beq_iff_eq, Magnitude.fraction, Magnitude.whole]
  constructor
  · intro h
    exact (Nat.div_mul_cancel (Nat.dvd_of_mod_eq_zero h)).symm
  · intro h
    rw [h]
    exact Nat.mul_mod_left _ _

theorem whole_of_scaled {x : Magnitude} {k : Nat} (h : x.scaled = k * Magnitude.unitsPerOne) :
    x.whole = k := by
  rw [Magnitude.whole, h, Nat.mul_div_cancel _ Magnitude.unitsPerOne_pos]

/-- The number of a whole number below `2 ^ 53` is exact. -/
theorem exists_ofRatio_whole (negative : Bool) {k : Nat} (hk : k < 2 ^ 53) :
    ∃ x : Magnitude, ofRatio negative k 1 = .finite negative x ∧
      x.scaled = k * Magnitude.unitsPerOne := by
  rcases Magnitude.exists_whole hk with ⟨x, hx⟩
  refine ⟨x, ?_, hx⟩
  rw [ofRatio, Magnitude.ofRatio, (Magnitude.nearest_whole_iff hk hx).2 rfl]
  rfl

theorem toInt?_ofRatio (negative : Bool) {k : Nat} (hk : k < 2 ^ 53) :
    (ofRatio negative k 1).toInt? = some (if negative then -(k : Int) else k) := by
  rcases exists_ofRatio_whole negative hk with ⟨x, hx, hscaled⟩
  have hwhole := whole_of_scaled hscaled
  have hexact : x.isWhole = true := by rw [isWhole_iff, hwhole, hscaled]
  rw [hx, toInt?, if_pos hexact, hwhole]

/-- A number that denotes an integer is a sign with a whole magnitude. -/
theorem exists_of_toInt? {n : Number} {i : Int} (h : n.toInt? = some i) :
    ∃ negative x, n = .finite negative x ∧ x.scaled = i.natAbs * Magnitude.unitsPerOne ∧
      i = if negative then -(i.natAbs : Int) else i.natAbs := by
  cases n with
  | nan => cases h
  | infinite s => cases h
  | finite s x =>
    rw [toInt?] at h
    split at h
    · next hw =>
      cases h
      have hscaled := isWhole_iff.1 hw
      refine ⟨s, x, rfl, ?_, ?_⟩
      · cases s <;> simpa using hscaled
      · cases s <;> simp
    · cases h

theorem isZero_iff {x : Magnitude} {k : Nat} (h : x.scaled = k * Magnitude.unitsPerOne) :
    x.isZero = true ↔ k = 0 := by
  rw [Magnitude.isZero, beq_iff_eq]
  constructor
  · intro hm
    rw [Magnitude.scaled_eq, hm, Nat.zero_mul] at h
    rcases Nat.mul_eq_zero.1 h.symm with h0 | h0
    · exact h0
    · exact absurd h0 Magnitude.unitsPerOne_pos.ne'
  · rintro rfl
    rw [Magnitude.scaled_eq, Nat.zero_mul] at h
    rcases Nat.mul_eq_zero.1 h with h0 | h0
    · exact h0
    · exact absurd h0 (by positivity)

/-- An integer is read back as its number, a zero without its sign. -/
theorem ofInt_of_toInt? {n : Number} {i : Int} (h : n.toInt? = some i) (hi : i.natAbs < 2 ^ 53) :
    ofInt i = if n.isZero then .zero else n := by
  rcases exists_of_toInt? h with ⟨s, x, rfl, hscaled, hsign⟩
  rcases exists_ofRatio_whole (decide (i < 0)) hi with ⟨y, hy, hyscaled⟩
  have hxy : y = x := Magnitude.scaled_injective (hyscaled.trans hscaled.symm)
  have hzero : (Number.finite s x).isZero = true ↔ i.natAbs = 0 := isZero_iff hscaled
  rw [ofInt, hy, hxy]
  by_cases h0 : i.natAbs = 0
  · have hx0 : x = .zero := Magnitude.scaled_injective <| by
      rw [hscaled, h0, Magnitude.scaled_eq]
      simp [Magnitude.zero]
    rw [if_pos (hzero.2 h0), hx0, zero, show i = 0 by omega]
    rfl
  · have hs : decide (i < 0) = s := by
      cases s <;> simp only [Bool.false_eq_true, if_false, if_true] at hsign <;> simp <;> omega
    rw [if_neg (by rw [hzero]; exact h0), hs]

end Number

end TreeExtraction
