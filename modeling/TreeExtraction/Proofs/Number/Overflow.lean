import TreeExtraction.Proofs.Number.Exact
import TreeExtraction.Proofs.Number.Notation

/-! # Overflow of whole numbers

A whole number is rounded to a whole number, unless it is past all magnitudes. The first one that
is lies half of a last binary digit above the greatest magnitude: the tie goes to the even side,
where there is no magnitude any more.
-/

namespace TreeExtraction

/-- Rounding reaches an even point from the middle between that and the point before it on. -/
theorem le_roundEven_iff {a u c : ℕ} (hu : 0 < u) (hc : 0 < c) (heven : Even c) :
    c ≤ roundEven a (2 * u) ↔ (2 * c - 1) * u ≤ a := by
  have hnear := isNearestInt_roundEven a (Nat.mul_pos two_pos hu)
  generalize roundEven a (2 * u) = k at hnear ⊢
  have hiff := isNearestInt_div_iff (i := a) (u := (2 * u : ℕ)) (k := k) (by omega)
  rw [Int.cast_natCast, Int.cast_natCast] at hiff
  obtain ⟨hdist, htie⟩ := hiff.1 hnear
  have hhalf : |(k : ℤ) * (2 * u : ℕ) - a| ≤ u := by omega
  obtain ⟨hlow, hhigh⟩ := abs_le.1 hhalf
  obtain ⟨b, rfl⟩ : ∃ b, c = b + 1 := ⟨c - 1, by omega⟩
  rw [show 2 * (b + 1) - 1 = 2 * b + 1 by omega]
  push_cast at hlow hhigh
  constructor
  · intro hle
    have hmul := Nat.mul_le_mul_right (2 * u) hle
    zify at hmul ⊢
    linarith
  · intro hge
    by_contra hlt
    have hmul := Nat.mul_le_mul_right (2 * u) (Nat.le_of_not_lt hlt : k ≤ b)
    zify at hge hmul
    -- The value is the middle between the odd point before and the even one.
    have hsum : (a : ℤ) = (2 * b + 1) * u := by linarith
    have hk : k = b := by
      have heq : k * (2 * u) = b * (2 * u) := by zify; linarith
      exact Nat.eq_of_mul_eq_mul_right (by omega) heq
    have hmiddle : 2 * |(k : ℤ) * (2 * u : ℕ) - a| = (2 * u : ℕ) := by
      rw [hk, hsum]
      push_cast
      rw [show (b : ℤ) * (2 * u) - (2 * b + 1) * u = -u by ring, abs_neg, Nat.abs_cast]
    have hodd := htie hmiddle
    rw [hk, Int.even_coe_nat] at hodd
    exact absurd heven (Nat.not_even_iff_odd.2 hodd.add_one)

namespace Magnitude

variable {a d k t : ℕ} {x : Magnitude}

theorem ofParts?_eq_none_iff {m e : ℕ} :
    ofParts? m e = none ↔ ¬(m < 2 ^ 53 ∧ e ≤ 2045 ∧ (2 ^ 52 ≤ m ∨ e = 0)) :=
  dite_eq_right_iff.trans (forall_congr' fun _ => iff_false_intro nofun)

/-- Nothing is near to a value if its exponent is past the greatest, or becomes so by a carry. -/
theorem nearest_eq_none_iff_exponentOf (hd : 0 < d) :
    nearest a d = none ↔ 2045 < exponentOf a d ∨
      exponentOf a d = 2045 ∧ 2 ^ 53 ≤ roundEven a (d * 2 ^ exponentOf a d) := by
  have hpos : 0 < d * 2 ^ exponentOf a d := by positivity
  have hle : roundEven a (d * 2 ^ exponentOf a d) ≤ 2 ^ 53 :=
    roundEven_le hpos (lt_of_exponentOf hd).le
  have hnormal : exponentOf a d ≠ 0 → 2 ^ 52 ≤ roundEven a (d * 2 ^ exponentOf a d) := fun hne =>
    le_roundEven hpos (pow_mul_le_of_exponentOf hne)
  rw [nearest_eq]
  split <;> rw [ofParts?_eq_none_iff] <;> omega

/-- Nothing is near to a value from half of a last binary digit above the greatest magnitude on. -/
theorem nearest_eq_none_iff (hd : 0 < d) (ht : t + 1 = 2045) :
    nearest a d = none ↔ (2 ^ 54 - 1) * (d * 2 ^ t) ≤ a := by
  have hu : 0 < d * 2 ^ t := by positivity
  have hpow : ∀ {e}, t + 1 ≤ e → 2 * (d * 2 ^ t) ≤ d * 2 ^ e := by
    intro e he
    rw [Nat.mul_left_comm, ← Nat.pow_succ']
    exact Nat.mul_le_mul_left d (Nat.pow_le_pow_right two_pos he)
  have hlt := lt_of_exponentOf (a := a) hd
  rw [nearest_eq_none_iff_exponentOf hd]
  rcases lt_trichotomy (exponentOf a d) (t + 1) with he | he | he
  · have hle : d * 2 ^ exponentOf a d ≤ d * 2 ^ t :=
      Nat.mul_le_mul_left d (Nat.pow_le_pow_right two_pos (by omega))
    omega
  · have hdigit : d * 2 ^ exponentOf a d = 2 * (d * 2 ^ t) := by
      rw [he, Nat.pow_succ']
      ring
    have hcarry := le_roundEven_iff (a := a) hu (by norm_num : 0 < 2 ^ 53) (by decide)
    rw [← hdigit] at hcarry
    omega
  · have hge := pow_mul_le_of_exponentOf (a := a) (d := d) (by omega)
    have hdigit : 4 * (d * 2 ^ t) ≤ d * 2 ^ exponentOf a d := by
      calc 4 * (d * 2 ^ t) = d * 2 ^ (t + 1 + 1) := by
            rw [Nat.pow_succ, Nat.pow_succ]
            ring
        _ ≤ d * 2 ^ exponentOf a d :=
            Nat.mul_le_mul_left d (Nat.pow_le_pow_right two_pos he)
    omega

/-- A whole number is rounded to a whole number. -/
theorem isWhole_of_nearest (h : nearest (k * unitsPerOne) 1 = some x) : x.isWhole = true := by
  obtain ⟨w, -, -, hU⟩ := exists_unitsPerOne_eq
  have hscaled := scaled_of_nearest h
  rw [Nat.one_mul] at hscaled
  generalize exponentOf (k * unitsPerOne) 1 = e at hscaled
  have hdvd : unitsPerOne ∣ x.scaled := by
    rcases Nat.le_total w e with hle | hle
    · rw [hscaled, hU]
      exact Dvd.dvd.mul_left (Nat.pow_dvd_pow 2 hle) _
    · -- The number is a multiple of its last binary digit, so rounding leaves it alone.
      obtain ⟨c, hc⟩ : 2 ^ e ∣ unitsPerOne := by
        rw [hU]
        exact Nat.pow_dvd_pow 2 hle
      have hexact : roundEven (k * unitsPerOne) (2 ^ e) * 2 ^ e = k * unitsPerOne := by
        rw [hc, Nat.mul_left_comm, Nat.mul_comm (2 ^ e), roundEven_mul _ (by positivity)]
      rw [hscaled, hexact]
      exact Nat.dvd_mul_left _ _
  rw [isWhole, fraction, Nat.mod_eq_zero_of_dvd hdvd]
  rfl

end Magnitude

namespace Number

open Magnitude

/-- The first whole number past all magnitudes, half of a last binary digit above the greatest one,
which is `(2 ^ 53 - 1) * 2 ^ 971`. -/
def overflow : ℕ :=
  (2 ^ 54 - 1) * Nat.pow 2 970

variable {n : Number} {k : ℕ}

theorem nearest_eq_none_iff_overflow : nearest (k * unitsPerOne) 1 = none ↔ overflow ≤ k := by
  -- The exponents are not spelled out, so that nothing evaluates the powers.
  obtain ⟨t, v, w, ht, hw, hover, hU⟩ : ∃ t v w, t + 1 = 2045 ∧ t = v + w ∧
      overflow = (2 ^ 54 - 1) * Nat.pow 2 v ∧ unitsPerOne = Nat.pow 2 w :=
    ⟨2044, 970, 1074, by decide, by decide, by unfold overflow; rfl, by unfold unitsPerOne; rfl⟩
  rw [nearest_eq_none_iff Nat.one_pos ht, hover, hU, Nat.one_mul, hw, Nat.pow_add, ← Nat.mul_assoc]
  exact Nat.mul_le_mul_right_iff (by positivity)

/-- A whole number past all magnitudes is infinite. -/
theorem ofRatio_of_overflow (negative : Bool) (h : overflow ≤ k) :
    ofRatio negative k 1 = .infinite negative := by
  rw [ofRatio, Magnitude.ofRatio, nearest_eq_none_iff_overflow.2 h, ofMagnitude]

/-- Any other whole number is rounded to a whole number, of the same sign. -/
theorem exists_ofRatio (negative : Bool) (h : k < overflow) :
    ∃ x : Magnitude, ofRatio negative k 1 = .finite negative x ∧ x.isWhole = true := by
  cases hnear : nearest (k * unitsPerOne) 1 with
  | none => exact absurd (nearest_eq_none_iff_overflow.1 hnear) (Nat.not_le_of_lt h)
  | some x =>
    refine ⟨x, ?_, isWhole_of_nearest hnear⟩
    rw [ofRatio, Magnitude.ofRatio, hnear, ofMagnitude]

/-- A decimal without places is a whole number. -/
theorem ofDecimal_whole (negative : Bool) (k : ℕ) :
    ofDecimal negative k 0 = ofRatio negative k 1 := by
  rw [ofDecimal]
  by_cases hk : k = 0
  · rw [if_pos hk, hk, ofRatio, Magnitude.ofRatio, Nat.zero_mul, nearest_zero, ofMagnitude]
  · have hplace : (0 : ℤ).toNat = 0 := rfl
    rw [if_neg hk, if_neg (by omega), if_neg (by omega), Magnitude.ofDecimal, if_pos le_rfl,
      ofRatio, hplace, show Nat.pow 10 0 = 1 from rfl, Nat.mul_one]

/-! ## Truncation and the lower bound zero -/

/-- Leaving out the fraction is exact. -/
theorem exists_truncate (negative : Bool) (x : Magnitude) :
    ∃ y : Magnitude, (finite negative x).truncate = .finite negative y ∧ y.isWhole = true := by
  have hsum := whole_mul_add_fraction x
  have hlt := fraction_lt x
  obtain ⟨z, hz⟩ := exists_multiple_near (x := x) (k := x.whole)
    (by rw [Nat.succ_mul]; omega) (by omega)
  refine ⟨z, ?_, ?_⟩
  · rw [truncate, wholeOf, Number.ofRatio, Magnitude.ofRatio, nearest_of_scaled hz, ofMagnitude]
  · rw [isWhole_iff, whole_of_scaled hz, hz]

theorem toInt?_zero : zero.toInt? = some 0 := by
  simp [zero, toInt?, Magnitude.isWhole, Magnitude.fraction, Magnitude.whole, Magnitude.scaled,
    Magnitude.zero]

theorem exists_toInt?_clampBelow {x : Magnitude} (negative : Bool) (hx : x.isWhole = true) :
    ∃ k : ℕ, (finite negative x).clampBelow.toInt? = some (k : ℤ) := by
  cases negative with
  | true => exact ⟨0, toInt?_zero⟩
  | false =>
    refine ⟨x.whole, ?_⟩
    rw [clampBelow, isNegative, if_neg Bool.false_ne_true, toInt?, if_pos hx,
      if_neg Bool.false_ne_true]

/-- What a lower bound zero gives is the greater one of zero and the number. -/
theorem clampBelow_eq (hn : n ≠ .nan) : n.clampBelow = if zero.less n then n else zero := by
  rw [clampBelow]
  cases n with
  | nan => exact absurd rfl hn
  | infinite s => cases s <;> rfl
  | finite s x =>
    have hzero : Magnitude.zero.scaled = 0 := by simp [scaled, Magnitude.zero]
    cases s with
    | true => simp [isNegative, less, zero, hzero]
    | false =>
      by_cases hx : x.scaled = 0
      · rw [scaled_injective (hx.trans hzero.symm)]
        simp [isNegative, less, zero]
      · simp [isNegative, less, zero, hzero, Nat.pos_of_ne_zero hx]

end Number

end TreeExtraction
