import TreeExtraction.Proofs.Number.Exact
import TreeExtraction.Transform.Rounding

/-! # Rounding to places

Rounding is decided on the expansion to a hundred places. That is rounded itself, but it shows a
half only where the number is one. Numbers whose product with the power of ten reaches `2 ^ 52` are
left alone, and from `2 ^ 53` on they are next to their nearest multiple.
-/

namespace TreeExtraction.Rounding

open Number Magnitude

variable {x : Magnitude} {d j : ℕ}

theorem roundUp_le {a c u : ℕ} (hu : 0 < u) (h : a ≤ c * u) : roundUp a u ≤ c := by
  rw [roundUp, ← Nat.lt_succ_iff, Nat.div_lt_iff_lt_mul (by omega)]
  linarith

theorem le_roundUp {a c u : ℕ} (hu : 0 < u) (h : c * u ≤ a) : c ≤ roundUp a u := by
  rw [roundUp, Nat.le_div_iff_mul_le (by omega)]
  linarith

theorem abs_roundUp_sub (a : ℕ) {u : ℕ} (hu : 0 < u) :
    |2 * ((roundUp a u : ℤ) * u - a)| ≤ u := by
  have hle := Nat.div_mul_le_self (2 * a + u) (2 * u)
  have hlt := Nat.lt_div_mul_add (a := 2 * a + u) (Nat.mul_pos two_pos hu)
  have hassoc : roundUp a u * (2 * u) = 2 * (roundUp a u * u) := Nat.mul_left_comm ..
  rw [← roundUp, hassoc] at hle hlt
  zify at hle hlt
  rw [abs_le]
  constructor <;> linarith

/-- Half a unit in the place that is rounded to, in units of the last place of the expansion. -/
def halfUnit (d : ℕ) : ℕ :=
  5 * 10 ^ (99 - d)

theorem pow_sub_eq (hd : d ≤ 22) : 10 ^ (exactPlaces - d) = 2 * halfUnit d := by
  rw [halfUnit, exactPlaces, show 100 - d = 99 - d + 1 by omega, Nat.pow_succ]
  ring

theorem pow_exactPlaces (hd : d ≤ 22) : 10 ^ exactPlaces = 10 ^ d * (2 * halfUnit d) := by
  rw [← pow_sub_eq hd, ← Nat.pow_add, show d + (exactPlaces - d) = exactPlaces by
    rw [exactPlaces]; omega]

theorem le_halfUnit (hd : d ≤ 22) : 2 ^ 200 ≤ halfUnit d :=
  calc 2 ^ 200 ≤ 5 * 10 ^ 77 := by norm_num
    _ ≤ 5 * 10 ^ (99 - d) := Nat.mul_le_mul_left 5 (Nat.pow_le_pow_right (by norm_num) (by omega))

/-- An expansion that shows a half is exact: the number is so great that its last binary digit
exceeds the last place of the expansion. -/
theorem mul_eq_of_places_half (hd : d ≤ 22) (h : x.places exactPlaces = (2 * j + 1) * halfUnit d) :
    2 * (x.scaled * 10 ^ d) = (2 * j + 1) * unitsPerOne := by
  obtain ⟨v, hv, -, hU⟩ := exists_half_unitsPerOne
  have hhalf : (2 ^ 200 : ℤ) ≤ halfUnit d := by exact_mod_cast le_halfUnit hd
  have hnear := abs_roundUp_sub (x.scaled * 10 ^ exactPlaces) unitsPerOne_pos
  have hplaces : roundUp (x.scaled * 10 ^ exactPlaces) unitsPerOne = (2 * j + 1) * halfUnit d := h
  rw [hplaces, pow_exactPlaces hd] at hnear
  -- The difference is a multiple of a great power of two.
  have hsmall : |(2 * (x.scaled * 10 ^ d) : ℤ) - (2 * j + 1) * unitsPerOne| * (2 * halfUnit d) ≤
      (unitsPerOne : ℤ) := by
    have habs : |(2 * halfUnit d : ℤ)| = 2 * halfUnit d := abs_of_nonneg (by omega)
    rw [← habs, ← abs_mul, ← abs_neg]
    refine le_of_eq_of_le (congrArg _ ?_) hnear
    push_cast
    ring
  have hdvd : (2 ^ (min x.exponent v + 1) : ℤ) ∣
      2 * (x.scaled * 10 ^ d) - (2 * j + 1) * unitsPerOne := by
    have hx : 2 ^ min x.exponent v ∣ x.scaled * 10 ^ d :=
      Dvd.dvd.mul_right ((Nat.pow_dvd_pow 2 (min_le_left ..)).trans (Dvd.intro_left _ rfl)) _
    have hu : 2 ^ (min x.exponent v + 1) ∣ unitsPerOne := by
      rw [hU, Nat.pow_succ']
      exact Nat.mul_dvd_mul_left 2 (Nat.pow_dvd_pow 2 (min_le_right ..))
    refine dvd_sub ?_ (Dvd.dvd.mul_left (by exact_mod_cast hu) _)
    rw [pow_succ']
    exact mul_dvd_mul_left 2 (by exact_mod_cast hx)
  -- The number is at least a quarter of a unit, so its exponent is near that of one.
  have hexponent : v < x.exponent + 150 := by
    by_contra hge
    have hxd : x.scaled * 10 ^ d ≤ 2 ^ 53 * 2 ^ x.exponent * 2 ^ 74 := by
      refine Nat.mul_le_mul (Nat.mul_le_mul_right _ x.mantissa_lt.le) ?_
      exact (Nat.pow_le_pow_right (by norm_num) hd).trans (by norm_num)
    have hpow : 2 * (2 ^ 53 * 2 ^ x.exponent * 2 ^ 74) ≤ 2 ^ v := by
      rw [← Nat.pow_add, ← Nat.pow_add, ← Nat.pow_succ']
      exact Nat.pow_le_pow_right two_pos (by omega)
    have hbelow : 2 * (x.scaled * 10 ^ d) ≤ 2 ^ v := by omega
    have hj := Nat.le_mul_of_pos_left unitsPerOne (by omega : 0 < 2 * j + 1)
    zify at hbelow hj hU
    have hfar : (2 ^ v : ℤ) ≤ |(2 * (x.scaled * 10 ^ d) : ℤ) - (2 * j + 1) * unitsPerOne| := by
      rw [abs_sub_comm]
      exact le_trans (by linarith) (le_abs_self _)
    have hv' : (0 : ℤ) < 2 ^ v := by positivity
    have hprod := mul_le_mul hfar (by omega : (2 : ℤ) * 2 ≤ 2 * halfUnit d) (by norm_num)
      (abs_nonneg _)
    linarith
  have hlt : |(2 * (x.scaled * 10 ^ d) : ℤ) - (2 * j + 1) * unitsPerOne| <
      2 ^ (min x.exponent v + 1) := by
    by_contra hge
    have hprod := (mul_le_mul (not_lt.1 hge) (by omega : (2 ^ 200 : ℤ) ≤ 2 * halfUnit d)
      (by norm_num) (abs_nonneg _)).trans hsmall
    rw [hU, ← pow_add] at hprod
    have hpow : 2 ^ (min x.exponent v + 1 + 200) ≤ 2 ^ (v + 1) := by
      rw [show 2 ^ (v + 1) = 2 * 2 ^ v from Nat.pow_succ']
      exact_mod_cast hprod
    have hle := (Nat.pow_le_pow_iff_right one_lt_two).1 hpow
    omega
  have hzero := Int.eq_zero_of_abs_lt_dvd hdvd hlt
  exact_mod_cast sub_eq_zero.1 hzero

/-- The count of units is the integer nearest to the number in that place. -/
theorem isNearestInt_unitsAt (x : Magnitude) (hd : d ≤ 22) :
    IsNearestInt ((x.scaled : ℚ) / unitsPerOne * 10 ^ d) (unitsAt x d : ℕ) := by
  have hU := cast_unitsPerOne_pos
  have hhalf : 0 < halfUnit d := (by norm_num : 0 < 2 ^ 200).trans_le (le_halfUnit hd)
  have hhalf' : (0 : ℚ) < halfUnit d := by exact_mod_cast hhalf
  have hround := isNearestInt_roundEven (x.places exactPlaces) (d := 2 * halfUnit d) (by omega)
  rw [← pow_sub_eq hd] at hround
  -- Both values are compared with halves as natural numbers.
  have hplaces : ∀ j : ℕ, ((j : ℚ) + 1 / 2) * (10 ^ (exactPlaces - d) : ℕ) =
      ((2 * j + 1) * halfUnit d : ℕ) := by
    intro j
    rw [pow_sub_eq hd]
    push_cast
    ring
  have hexact : ∀ j : ℕ, ((j : ℚ) + 1 / 2) * unitsPerOne = ((2 * j + 1) * unitsPerOne : ℕ) / 2 := by
    intro j
    push_cast
    ring
  have hscaled : (x.scaled : ℚ) / unitsPerOne * 10 ^ d * unitsPerOne =
      (2 * (x.scaled * 10 ^ d) : ℕ) / 2 := by
    rw [mul_right_comm, div_mul_cancel₀ _ hU.ne']
    push_cast
    ring
  have hpow : (0 : ℚ) < (10 ^ (exactPlaces - d) : ℕ) := by
    rw [pow_sub_eq hd]
    exact_mod_cast (by omega : 0 < 2 * halfUnit d)
  have hexpand : x.scaled * 10 ^ exactPlaces = 2 * (x.scaled * 10 ^ d) * halfUnit d := by
    rw [pow_exactPlaces hd]
    ring
  refine hround.of_approximation_nonneg (div_nonneg (Nat.cast_nonneg _) hpow.le)
    (mul_nonneg (div_nonneg (Nat.cast_nonneg _) hU.le) (pow_nonneg (by norm_num) d))
    (fun j hj => ?_) (fun j hj => ?_) (fun j hj => ?_)
  · rw [div_le_iff₀ hpow, hplaces]
    rw [← mul_le_mul_iff_of_pos_right hU, hscaled, hexact, div_le_div_iff_of_pos_right two_pos,
      Nat.cast_le] at hj
    refine Nat.cast_le.2 (roundUp_le unitsPerOne_pos ?_)
    show x.scaled * 10 ^ exactPlaces ≤ _
    rw [hexpand, Nat.mul_right_comm (2 * j + 1)]
    exact Nat.mul_le_mul_right _ hj
  · rw [le_div_iff₀ hpow, hplaces]
    rw [← mul_le_mul_iff_of_pos_right hU, hscaled, hexact, div_le_div_iff_of_pos_right two_pos,
      Nat.cast_le] at hj
    refine Nat.cast_le.2 (le_roundUp unitsPerOne_pos ?_)
    show _ ≤ x.scaled * 10 ^ exactPlaces
    rw [hexpand, Nat.mul_right_comm (2 * j + 1)]
    exact Nat.mul_le_mul_right _ hj
  · rw [div_eq_iff hpow.ne', hplaces] at hj
    have hhalf := mul_eq_of_places_half hd (Nat.cast_injective hj)
    refine mul_right_cancel₀ hU.ne' ?_
    rw [hscaled, hexact, hhalf]

/-- The product with the power of ten reaches `2 ^ 52` where the exact one is at most a quarter
below it. -/
theorem less_integralMagnitude_iff {f : Magnitude} (hf : f.scaled = 10 ^ d * unitsPerOne) :
    ((finite false x).mul (finite false f)).less integralMagnitude = true ↔
      4 * (x.scaled * 10 ^ d) < (2 ^ 54 - 1) * unitsPerOne := by
  obtain ⟨top, htop⟩ := exists_multiple (k := 0x10000000000000) (by norm_num)
  have hintegral : integralMagnitude = finite false top := ofNat_of_scaled htop
  rw [show 0x10000000000000 = 2 ^ 52 by norm_num] at htop
  have hmul : (finite false x).mul (finite false f) =
      ofMagnitude false (nearest (x.scaled * 10 ^ d * unitsPerOne) unitsPerOne) := by
    rw [Nat.mul_assoc, ← hf]
    rfl
  rw [hintegral, hmul]
  cases hz : nearest (x.scaled * 10 ^ d * unitsPerOne) unitsPerOne with
  | some z =>
    have hnear := isNearest_of_nearest unitsPerOne_pos hz
    rw [Nat.cast_mul, mul_div_cancel_right₀ _ cast_unitsPerOne_pos.ne'] at hnear
    rw [ofMagnitude, less_finite, ← hnear.lt_pow_iff, ← htop]
    exact Int.ofNat_lt
  | none =>
    have hpast : ¬x.scaled * 10 ^ d ≤ top.scaled := by
      intro hle
      obtain ⟨z, hz'⟩ := exists_nearest unitsPerOne_pos (Nat.mul_le_mul_right unitsPerOne hle)
      rw [hz] at hz'
      cases hz'
    have hless : less (.infinite false) (finite false top) = false := rfl
    rw [ofMagnitude, hless]
    refine iff_of_false Bool.false_ne_true ?_
    have := unitsPerOne_pos
    omega

/-- Another magnitude is a unit of the place away from a great one, or more than that unless the
great one is a power of two. -/
theorem le_natAbs_of_great {y : Magnitude} (h : 2 ^ 53 * unitsPerOne ≤ x.scaled * 10 ^ d)
    (hy : y.scaled ≠ x.scaled) :
    unitsPerOne < ((y.scaled : ℤ) - x.scaled).natAbs * 10 ^ d ∨
      Even x.mantissa ∧ unitsPerOne ≤ ((y.scaled : ℤ) - x.scaled).natAbs * 10 ^ d := by
  rw [scaled_eq x, Nat.mul_assoc] at h
  rcases pow_le_natAbs_sub hy with hgap | ⟨hm, hgap⟩
  · left
    refine lt_of_lt_of_le ?_ (Nat.mul_le_mul_right _ hgap)
    have hlt := Nat.mul_lt_mul_of_pos_right x.mantissa_lt
      (Nat.mul_pos (Nat.two_pow_pos x.exponent) (Nat.pow_pos (by norm_num : 0 < 10) (n := d)))
    exact Nat.lt_of_mul_lt_mul_left (h.trans_lt hlt)
  · right
    refine ⟨hm ▸ by decide, ?_⟩
    have hle := Nat.mul_le_mul_right (10 ^ d) hgap
    rw [hm] at h
    rw [Nat.mul_assoc] at hle
    generalize 2 ^ x.exponent * 10 ^ d = g at h hle
    omega

/-- A number so great that its last binary digit is no less than a unit of the place is nearest to
its nearest multiple. -/
theorem exists_isNearest_of_great (h : 2 ^ 53 * unitsPerOne ≤ x.scaled * 10 ^ d) : ∃ k : ℕ,
    IsNearestInt ((x.scaled : ℚ) / unitsPerOne * 10 ^ d) k ∧
      x.IsNearest ((k : ℚ) / 10 ^ d * unitsPerOne) := by
  have hround := isNearestInt_roundEven (x.scaled * 10 ^ d) unitsPerOne_pos
  generalize roundEven (x.scaled * 10 ^ d) unitsPerOne = k at hround
  have hU : (0 : ℤ) < unitsPerOne := by exact_mod_cast unitsPerOne_pos
  have hten : (0 : ℚ) < 10 ^ d := pow_pos (by norm_num) d
  have hvalue : (x.scaled : ℚ) / unitsPerOne * 10 ^ d = (x.scaled * 10 ^ d : ℕ) / unitsPerOne := by
    rw [div_mul_eq_mul_div, Nat.cast_mul, Nat.cast_pow, Nat.cast_ofNat]
  have hdist : ∀ y : Magnitude, |(y.scaled : ℚ) - k / 10 ^ d * unitsPerOne| =
      (((y.scaled * 10 ^ d : ℕ) : ℤ) - (k * unitsPerOne : ℕ)).natAbs / 10 ^ d := by
    intro y
    rw [← mul_div_cancel_right₀ (y.scaled : ℚ) hten.ne', div_mul_eq_mul_div, ← sub_div, abs_div,
      abs_of_pos hten, Nat.cast_natAbs]
    push_cast
    rfl
  have hhalf :
      2 * (((x.scaled * 10 ^ d : ℕ) : ℤ) - (k * unitsPerOne : ℕ)).natAbs ≤ unitsPerOne := by
    have hle := ((isNearestInt_div_iff (i := (x.scaled * 10 ^ d : ℕ)) hU).1
      (by rwa [Int.cast_natCast, Int.cast_natCast])).1
    rw [abs_sub_comm] at hle
    zify
    push_cast at hle
    exact hle
  have hother : ∀ y : Magnitude, y.scaled ≠ x.scaled →
      (((x.scaled * 10 ^ d : ℕ) : ℤ) - (k * unitsPerOne : ℕ)).natAbs ≤
        (((y.scaled * 10 ^ d : ℕ) : ℤ) - (k * unitsPerOne : ℕ)).natAbs ∧
      ((((x.scaled * 10 ^ d : ℕ) : ℤ) - (k * unitsPerOne : ℕ)).natAbs =
        (((y.scaled * 10 ^ d : ℕ) : ℤ) - (k * unitsPerOne : ℕ)).natAbs → Even x.mantissa) := by
    intro y hy
    have hgap := le_natAbs_of_great h hy
    rw [show ((y.scaled : ℤ) - x.scaled).natAbs * 10 ^ d =
        (((y.scaled * 10 ^ d : ℕ) : ℤ) - (x.scaled * 10 ^ d : ℕ)).natAbs by
      rw [Nat.cast_mul, Nat.cast_mul, ← sub_mul, Int.natAbs_mul, Int.natAbs_natCast]] at hgap
    generalize x.scaled * 10 ^ d = a at hgap hhalf ⊢
    generalize y.scaled * 10 ^ d = b at hgap ⊢
    generalize k * unitsPerOne = c at hhalf ⊢
    rcases hgap with hgap | ⟨heven, hgap⟩
    · omega
    · exact ⟨by omega, fun _ => heven⟩
  refine ⟨k, by rwa [hvalue], fun y => ?_, fun y hne heq => ?_⟩
  · rw [hdist, hdist, div_le_div_iff_of_pos_right hten, Nat.cast_le]
    by_cases hy : y.scaled = x.scaled
    · rw [hy]
    · exact (hother y hy).1
  · rw [hdist, hdist, div_left_inj' hten.ne', Nat.cast_inj] at heq
    exact (hother y (by exact_mod_cast hne)).2 heq.symm

end TreeExtraction.Rounding
