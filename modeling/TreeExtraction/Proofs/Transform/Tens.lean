import TreeExtraction.Proofs.Number.Exact
import TreeExtraction.Transform.Rounding

/-! # Rounding to tens

The integer nearest to a number is found, a tie going to the even one. For tens and higher powers
that number is a quotient, which has been rounded. Halves are numbers themselves, so rounding does
not pass them, and it reaches them only from themselves as long as the dividend is not too great.
-/

namespace TreeExtraction.Rounding

open Number Magnitude

variable {n : Number} {i k : ℤ}

/-! ## The nearest integer of a number -/

/-- A half between integers goes to the even one. -/
theorem isNearestInt_of_tie {i u : ℤ} (hu : 0 < u) (htie : 2 * (i % u) = u) :
    IsNearestInt ((i : ℚ) / u) (if i / u % 2 = 0 then i / u else i / u + 1) := by
  have hsum := Int.ediv_mul_add_emod i u
  rw [isNearestInt_div_iff hu, Int.even_iff]
  split_ifs with heven
  · have hdist : |i / u * u - i| = i % u := by
      rw [show i / u * u - i = -(i % u) by linarith, abs_neg]
      exact abs_of_nonneg (by omega)
    omega
  · have hdist : |(i / u + 1) * u - i| = u - i % u := by
      rw [show (i / u + 1) * u - i = u - i % u by linarith]
      exact abs_of_nonneg (by omega)
    omega

/-- Away from the halves there is one nearest integer. -/
theorem isNearestInt_of_ne_tie {i u : ℤ} (hu : 0 < u) (htie : 2 * (i % u) ≠ u) :
    IsNearestInt ((i : ℚ) / u) ((2 * i + u) / (2 * u)) := by
  have hsum := Int.ediv_mul_add_emod i u
  have hpos := Int.emod_nonneg i hu.ne'
  have hlt := Int.emod_lt_of_pos i hu
  rw [isNearestInt_div_iff hu]
  by_cases hbelow : 2 * (i % u) < u
  · rw [ediv_eq_of_bounds (k := i / u) (by linarith) (by linarith) (by linarith),
      show i / u * u - i = -(i % u) by linarith, abs_neg, abs_of_nonneg hpos]
    omega
  · rw [ediv_eq_of_bounds (k := i / u + 1) (by linarith) (by linarith) (by linarith),
      show (i / u + 1) * u - i = u - i % u by linarith, abs_of_nonneg (by omega)]
    omega

/-- What remains over the floor is exact, but for numbers between minus one half and zero. -/
theorem scaled?_sub_floor {s : Bool} {x : Magnitude}
    (hx : s = true → x.isWhole = false → unitsPerOne ≤ 2 * x.scaled) :
    ((finite s x).sub (finite s x).floor).scaled? = some (x.signed s % unitsPerOne) := by
  have hU : (0 : ℤ) < unitsPerOne := by exact_mod_cast unitsPerOne_pos
  have hsum : (x.scaled : ℤ) = x.whole * unitsPerOne + x.fraction := by
    exact_mod_cast (whole_mul_add_fraction x).symm
  have hlt := fraction_lt x
  have hrest : x.signed s - x.signed s / unitsPerOne * unitsPerOne = x.signed s % unitsPerOne := by
    linarith [Int.ediv_mul_add_emod (x.signed s) unitsPerOne]
  rw [← hrest]
  refine scaled?_sub (scaled?_finite s x) (scaled?_floor (scaled?_finite s x)) ?_
  rw [hrest]
  have hmod : ∀ {q r : ℤ}, r + unitsPerOne * q = x.signed s → 0 ≤ r → r < unitsPerOne →
      x.signed s % unitsPerOne = r := fun hr hpos hr' =>
    ((Int.ediv_emod_unique hU).2 ⟨hr, hpos, hr'⟩).2
  cases s with
  | false =>
    obtain ⟨z, hz⟩ := exists_fraction x
    rw [hmod (q := x.whole) (r := x.fraction) (by rw [signed, if_neg Bool.false_ne_true]; linarith)
      (by omega) (by omega)]
    exact ⟨z, hz⟩
  | true =>
    cases hw : x.isWhole with
    | true =>
      rw [fraction_eq_zero hw, Nat.cast_zero, Int.add_zero] at hsum
      rw [hmod (q := -x.whole) (r := 0) (by rw [signed, if_pos rfl]; linarith) le_rfl hU]
      exact ⟨.zero, by simp [scaled, Magnitude.zero]⟩
    | false =>
      obtain ⟨z, hz⟩ := exists_lack hw (hx rfl hw)
      have hpos : x.fraction ≠ 0 := by simpa [isWhole] using hw
      rw [hmod (q := -(x.whole + 1)) (r := unitsPerOne - x.fraction)
        (by rw [signed, if_pos rfl]; linarith) (by omega) (by omega)]
      exact ⟨z, by omega⟩

/-- The number next to the floor of a number with a fraction is exact. -/
theorem scaled?_floor_add_one {s : Bool} {x : Magnitude} (hx : x.isWhole = false) :
    ((finite s x).floor.add (ofNat 1)).scaled? =
      some ((x.signed s / unitsPerOne + 1) * unitsPerOne) := by
  have hU : (0 : ℤ) < unitsPerOne := by exact_mod_cast unitsPerOne_pos
  have hsmall := lt_of_not_isWhole hx
  have hnat := natAbs_signed s x
  have hlow : -2 ^ 52 ≤ x.signed s / unitsPerOne := (Int.le_ediv_iff_mul_le hU).2 (by omega)
  have hhigh : x.signed s / unitsPerOne < 2 ^ 52 := (Int.ediv_lt_iff_lt_mul hU).2 (by omega)
  rw [add_mul]
  refine scaled?_add (scaled?_floor (scaled?_finite s x)) (scaled?_ofNat (by norm_num)) ?_
  rw [← add_mul, Int.natAbs_mul, Int.natAbs_natCast]
  exact exists_multiple (by omega)

/-- A number between minus one half and zero has the nearest integer zero. What it lacks to zero may
be rounded to one half, but a tie leads to zero too. -/
theorem scaled?_nearestEven_of_lt {x : Magnitude} (hx : x.isWhole = false)
    (hsmall : 2 * x.scaled < unitsPerOne) :
    (nearestEven (finite true x)).scaled? = some 0 := by
  have hU : (0 : ℤ) < unitsPerOne := by exact_mod_cast unitsPerOne_pos
  have hpos : x.scaled ≠ 0 := by
    intro hzero
    rw [isWhole, fraction, hzero, Nat.zero_mod] at hx
    cases hx
  have hsigned : x.signed true = -x.scaled := rfl
  have hquot : x.signed true / unitsPerOne = -1 := ediv_eq_of_bounds hU (by omega) (by omega)
  have hfloor := scaled?_floor (scaled?_finite true x)
  have hup := scaled?_floor_add_one (s := true) hx
  have hround := scaled?_roundHalfUp (scaled?_finite true x)
  rw [hquot] at hfloor hup
  rw [Int.add_left_neg, Int.zero_mul] at hup
  rw [ediv_eq_of_bounds (k := 0) (by omega) (by omega) (by omega), Int.zero_mul] at hround
  have hodd : (finite true x).floor.isEven = false := isEven_of_scaled? hfloor
  rw [nearestEven, hodd, if_neg Bool.false_ne_true]
  split
  · exact hup
  · exact hround

/-- The nearest integer of a number is found, a tie going to the even one. -/
theorem exists_nearestEven (h : n.scaled? = some i) : ∃ k : ℤ,
    (nearestEven n).scaled? = some (k * unitsPerOne) ∧
      IsNearestInt ((i : ℚ) / (unitsPerOne : ℤ)) k := by
  obtain ⟨s, x, rfl, rfl⟩ := exists_of_scaled? h
  have hU : (0 : ℤ) < unitsPerOne := by exact_mod_cast unitsPerOne_pos
  by_cases hx : s = true → x.isWhole = false → unitsPerOne ≤ 2 * x.scaled
  · have hfloor := scaled?_floor h
    have hhalf := equal_half (scaled?_sub_floor hx)
    rw [nearestEven]
    split
    · next htie =>
      rw [hhalf] at htie
      have hwhole : x.isWhole = false := by
        by_contra hw
        rw [Int.emod_eq_zero_of_dvd (dvd_signed s (by simpa using hw))] at htie
        omega
      refine ⟨_, ?_, isNearestInt_of_tie hU htie⟩
      rw [isEven_of_scaled? hfloor]
      simp only [decide_eq_true_eq]
      split
      · exact hfloor
      · exact scaled?_floor_add_one hwhole
    · next htie =>
      rw [hhalf] at htie
      exact ⟨_, scaled?_roundHalfUp h, isNearestInt_of_ne_tie hU htie⟩
  · obtain ⟨rfl, hwhole, hsmall⟩ : s = true ∧ x.isWhole = false ∧ 2 * x.scaled < unitsPerOne := by
      simpa [and_assoc] using hx
    refine ⟨0, ?_, (isNearestInt_div_iff hU).2 ?_⟩
    · rw [Int.zero_mul]
      exact scaled?_nearestEven_of_lt hwhole hsmall
    · rw [zero_mul, zero_sub, abs_neg, Int.abs_eq_natAbs, natAbs_signed]
      omega

/-! ## Tens -/

section Tens

variable {s : Bool} {x y f : Magnitude} {p : ℕ}

theorem scaled_pos_of_pow (hf : f.scaled = 10 ^ p * unitsPerOne) : 0 < f.scaled := by
  rw [hf]
  exact Nat.mul_pos (Nat.pow_pos (by norm_num)) unitsPerOne_pos

/-- A rounded quotient goes to its nearest integer, and that is multiplied back. -/
theorem exists_toTens (s : Bool) (x : Magnitude) (hf : f.scaled = 10 ^ p * unitsPerOne) :
    ∃ y k, nearest (x.scaled * unitsPerOne) f.scaled = some y ∧ IsNearestInt (y.value s) k ∧
      (toTens (finite s x) (finite false f)).IsRounded (k * 10 ^ p) := by
  have hpos := scaled_pos_of_pow hf
  have hle : unitsPerOne ≤ f.scaled := by
    rw [hf]
    exact Nat.le_mul_of_pos_left _ (by positivity)
  obtain ⟨y, hy⟩ := exists_nearest hpos (Nat.mul_le_mul_left x.scaled hle)
  have hzero : f.isZero = false := by
    rw [← Bool.not_eq_true, isZero_iff_scaled]
    exact hpos.ne'
  have hdiv : (finite s x).div (finite false f) = finite s y := by
    rw [div, hzero, Bool.bne_false]
    show ofMagnitude s (nearest (x.scaled * unitsPerOne) f.scaled) = finite s y
    rw [hy, ofMagnitude]
  obtain ⟨k, hk, hnear⟩ := exists_nearestEven (scaled?_finite s y)
  obtain ⟨t, z, hz, hsigned⟩ := exists_of_scaled? hk
  have htens : toTens (finite s x) (finite false f) = (finite t z).mul (finite false f) := by
    rw [toTens, hdiv, hz]
    rfl
  have hvalue : f.value false = 10 ^ p := by
    rw [value_of_scaled hf]
    exact_mod_cast rfl
  refine ⟨y, k, hy, by rwa [Int.cast_natCast] at hnear, ?_⟩
  rw [htens, ← value_of_signed hsigned, ← hvalue]
  exact isRounded_mul t false z f

/-- In units, the value that `toTens` rounds first. -/
theorem cast_quotient (hf : f.scaled = 10 ^ p * unitsPerOne) :
    ((x.scaled * unitsPerOne : ℕ) : ℚ) / f.scaled = x.scaled / 10 ^ p := by
  rw [hf, Nat.cast_mul, Nat.cast_mul, Nat.cast_pow, Nat.cast_ofNat,
    mul_div_mul_right _ _ cast_unitsPerOne_pos.ne']

/-- A quotient that is rounded to a half is that half, if the number is not too great. The half
times the power of ten and the number are multiples of the last binary digit of the number, and
they are less than that apart. -/
theorem mul_eq_of_nearest_half {j : ℕ} (hf : f.scaled = 10 ^ p * unitsPerOne)
    (hx : x.scaled < 2 ^ (52 + p) * unitsPerOne)
    (hy : nearest (x.scaled * unitsPerOne) f.scaled = some y)
    (hhalf : 2 * y.scaled = (2 * j + 1) * unitsPerOne) : 10 ^ p * y.scaled = x.scaled := by
  have hd := scaled_pos_of_pow hf
  obtain ⟨v, hv, -, hU⟩ := exists_half_unitsPerOne
  have hyscaled : y.scaled = (2 * j + 1) * 2 ^ v := by
    rw [hU] at hhalf
    linarith
  have hbig : 2 ^ 53 ≤ y.scaled := by
    rw [hyscaled]
    exact (Nat.pow_le_pow_right two_pos (by omega)).trans (Nat.le_mul_of_pos_left _ (by omega))
  have hnormal : 2 ^ 52 * f.scaled ≤ x.scaled * unitsPerOne := by
    by_contra hlt
    obtain ⟨z, hz⟩ := exists_scaled (m := 2 ^ 52) (e := 0) (by norm_num) (by norm_num)
    have hle := (isNearest_of_nearest hd hy).point_le (j := z) <| by
      rw [hz, div_le_iff₀ (by exact_mod_cast hd)]
      exact_mod_cast by linarith
    have hle' : y.scaled ≤ z.scaled := by exact_mod_cast hle
    omega
  have herror := error_of_nearest hd hy hnormal
  rw [cast_quotient hf] at herror
  have hapart : |((10 ^ p * y.scaled : ℕ) : ℤ) - x.scaled| * 2 ^ 53 ≤ x.scaled := by
    have hten : (0 : ℚ) < 10 ^ p := by positivity
    have hdist : |(y.scaled : ℚ) - x.scaled / 10 ^ p| =
        |10 ^ p * (y.scaled : ℚ) - x.scaled| / 10 ^ p := by
      rw [← mul_div_cancel_left₀ (y.scaled : ℚ) hten.ne', ← sub_div, abs_div, abs_of_pos hten,
        mul_div_cancel_left₀ _ hten.ne']
    rw [hdist, div_mul_eq_mul_div, div_le_div_iff_of_pos_right hten] at herror
    exact_mod_cast herror
  have hexponent : x.exponent < p + v + 1 := by
    refine exponent_lt_of_scaled_lt (by omega) (hx.trans_eq ?_)
    rw [hU]
    ring
  have hdvd : 2 ^ x.exponent ∣ 10 ^ p * y.scaled := by
    rw [hyscaled, show 10 ^ p * ((2 * j + 1) * 2 ^ v) = 5 ^ p * (2 * j + 1) * 2 ^ (p + v) by
      rw [Nat.pow_add, show 10 = 5 * 2 by norm_num, Nat.mul_pow]; ring]
    exact Dvd.dvd.mul_left (Nat.pow_dvd_pow 2 (by omega)) _
  have hclose : |((10 ^ p * y.scaled : ℕ) : ℤ) - x.scaled| < (2 ^ x.exponent : ℕ) := by
    have hlt : x.scaled < 2 ^ x.exponent * 2 ^ 53 := by
      rw [scaled_eq, Nat.mul_comm]
      exact Nat.mul_lt_mul_of_pos_left x.mantissa_lt (by positivity)
    generalize 2 ^ x.exponent = g at hlt ⊢
    omega
  have hdvd' : 2 ^ x.exponent ∣ x.scaled := Dvd.intro_left _ rfl
  have hzero := Int.eq_zero_of_abs_lt_dvd
    (dvd_sub (Int.natCast_dvd_natCast.2 hdvd) (Int.natCast_dvd_natCast.2 hdvd')) hclose
  exact_mod_cast sub_eq_zero.1 hzero

/-- The nearest integer of the rounded quotient is that of the quotient, if the number is not too
great: halves are magnitudes, so rounding does not pass them. -/
theorem isNearestInt_of_quotient {k : ℤ} (hf : f.scaled = 10 ^ p * unitsPerOne)
    (hx : x.scaled < 2 ^ (52 + p) * unitsPerOne)
    (hy : nearest (x.scaled * unitsPerOne) f.scaled = some y)
    (hk : IsNearestInt ((y.scaled : ℚ) / unitsPerOne) k) :
    IsNearestInt ((x.scaled : ℚ) / unitsPerOne / 10 ^ p) k := by
  have hd := scaled_pos_of_pow hf
  have hU := cast_unitsPerOne_pos
  have hten : (0 : ℚ) < 10 ^ p := by positivity
  have hnear := isNearest_of_nearest hd hy
  rw [cast_quotient hf] at hnear
  -- All that matters lies below `2 ^ 52`, which is a magnitude itself.
  obtain ⟨top, htop⟩ := exists_multiple (k := 2 ^ 52) (by norm_num)
  have htop' : (top.scaled : ℚ) = 2 ^ 52 * unitsPerOne := by exact_mod_cast htop
  have hxtop : (x.scaled : ℚ) / 10 ^ p ≤ top.scaled := by
    have hpow : 2 ^ p ≤ 10 ^ p := Nat.pow_le_pow_left (by norm_num) p
    have hle : x.scaled ≤ top.scaled * 10 ^ p := by
      rw [htop]
      calc x.scaled ≤ 2 ^ (52 + p) * unitsPerOne := hx.le
        _ = 2 ^ 52 * unitsPerOne * 2 ^ p := by rw [Nat.pow_add]; ring
        _ ≤ 2 ^ 52 * unitsPerOne * 10 ^ p := Nat.mul_le_mul_left _ hpow
    rw [div_le_iff₀ hten]
    exact_mod_cast hle
  have hytop := hnear.point_le hxtop
  have hpast : ∀ j : ℕ, 2 ^ 52 ≤ j → (top.scaled : ℚ) < (j + 1 / 2) * unitsPerOne := by
    intro j hj
    have hj' : (2 ^ 52 : ℚ) ≤ j := by exact_mod_cast hj
    rw [htop']
    exact mul_lt_mul_of_pos_right (by linarith) hU
  have hhalf : ∀ j : ℕ, j < 2 ^ 52 →
      ∃ z : Magnitude, (z.scaled : ℚ) = (j + 1 / 2) * unitsPerOne := by
    intro j hj
    obtain ⟨z, hz⟩ := exists_half hj
    have hz' : 2 * (z.scaled : ℚ) = (2 * j + 1) * unitsPerOne := by exact_mod_cast hz
    exact ⟨z, by linarith⟩
  rw [div_right_comm]
  refine hk.of_approximation_nonneg (div_nonneg (Nat.cast_nonneg _) hU.le)
    (div_nonneg (div_nonneg (Nat.cast_nonneg _) hten.le) hU.le) (fun j hj => ?_) (fun j hj => ?_)
    (fun j hj => ?_) <;> rcases Nat.lt_or_ge j (2 ^ 52) with hsmall | hbig
  · obtain ⟨z, hz⟩ := hhalf j hsmall
    rw [div_le_iff₀ hU, ← hz] at hj ⊢
    exact hnear.point_le hj
  · rw [div_le_iff₀ hU]
    exact hytop.trans (hpast j hbig).le
  · obtain ⟨z, hz⟩ := hhalf j hsmall
    rw [le_div_iff₀ hU, ← hz] at hj ⊢
    exact hnear.le_point hj
  · rw [le_div_iff₀ hU] at hj
    exact absurd (hj.trans hxtop) (not_le_of_gt (hpast j hbig))
  · rw [div_eq_iff hU.ne'] at hj ⊢
    have hy2 : 2 * (y.scaled : ℚ) = (2 * j + 1) * unitsPerOne := by linarith
    have hexact := mul_eq_of_nearest_half (j := j) hf hx hy (by exact_mod_cast hy2)
    rw [← hj, div_eq_iff hten.ne', mul_comm]
    exact_mod_cast hexact.symm
  · rw [div_eq_iff hU.ne'] at hj
    exact absurd (hj.symm.trans_le hytop) (not_le_of_gt (hpast j hbig))

end Tens

end TreeExtraction.Rounding
