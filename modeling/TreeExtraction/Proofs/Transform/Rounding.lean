import TreeExtraction.Proofs.Number.Power
import TreeExtraction.Proofs.Transform.Places
import TreeExtraction.Proofs.Transform.Tens

/-! # Rounding half to even

Rounding to a count of digits ought to give the number nearest to the nearest multiple of the power
of ten. It does for tens and higher powers as long as the number is below `2 ^ 52` times the same
power of two, and for places unless the product with the power of ten lies between `2 ^ 52` and
`2 ^ 53`, where the number is left as it is. Beyond the bound for tens the rounded quotient is
rounded, and that may show a tie that the number does not have.
-/

namespace TreeExtraction.Rounding

open Number Magnitude

variable {s : Bool} {x m : Magnitude} {d k : ℤ} {p : ℕ} {q : ℚ}

/-! ## What rounding ought to give -/

/-- A multiple of `10 ^ (-digits)`. -/
def multiple (digits k : ℤ) : ℚ :=
  k * 10 ^ (-digits)

/-- A multiple is nearest to a value, and even if another multiple is as near. -/
abbrev IsNearestMultiple (digits : ℤ) (q : ℚ) (k : ℤ) : Prop :=
  IsNearestPoint (multiple digits) Even q k

/-- A number is nearest to the nearest multiple. -/
def IsHalfEven (digits : ℤ) (q : ℚ) (n : Number) : Prop :=
  ∃ k, IsNearestMultiple digits q k ∧ n.IsNearest (multiple digits k)

/-- Where the nearest multiple is found. -/
def IsDecided (digits : ℤ) (q : ℚ) : Prop :=
  digits < 0 ∧ |q| < 2 ^ (52 - digits) ∨ digits = 0 ∨
    0 < digits ∧ (|q| * 10 ^ digits < 2 ^ 52 - 1 / 4 ∨ 2 ^ 53 ≤ |q| * 10 ^ digits)

theorem isNearestMultiple_of_int (h : IsNearestInt (q * 10 ^ d) k) : IsNearestMultiple d q k := by
  have hten : (0 : ℚ) < 10 ^ (-d) := zpow_pos (by norm_num) _
  have hcancel : (10 : ℚ) ^ (-d) * (q * 10 ^ d) = q := by
    rw [mul_left_comm, ← zpow_add₀ (by norm_num), neg_add_cancel, zpow_zero, mul_one]
  have hpoint : multiple d = fun j : ℤ => (10 : ℚ) ^ (-d) * j := funext fun j => mul_comm _ _
  have hscaled := h.mul_left hten
  rwa [hcancel, ← hpoint] at hscaled

theorem abs_value (s : Bool) (x : Magnitude) : |x.value s| = x.scaled / unitsPerOne := by
  rw [value_eq, abs_signFactor_mul]
  exact abs_of_nonneg (div_nonneg (Nat.cast_nonneg _) cast_unitsPerOne_pos.le)

/-! ## Tens -/

/-- Rounding to a power of ten divides by it, rounds and multiplies. -/
theorem halfEven_of_neg (hx : x.isZero = false) (hm : m.scaled = p * unitsPerOne) (hp : p ≠ 0) :
    halfEven (finite s x) (finite true m) = toTens (finite s x) (powerOfTen m) := by
  have hzero : m.isZero = false := by
    rw [← Bool.not_eq_true, isZero_iff hm]
    exact hp
  rw [halfEven]
  simp [Number.isFinite, Number.isZero, hx, hzero]

theorem exists_halfEven_of_neg (hx : x.isZero = false) (hm : m.scaled = p * unitsPerOne)
    (hp : p ≠ 0) (hp' : p ≤ 22) : ∃ y k, (finite s y).IsNearest (x.value s / 10 ^ p) ∧
      IsNearestInt (y.value s) k ∧
      (halfEven (finite s x) (finite true m)).IsRounded (k * 10 ^ p) ∧
      (x.scaled < 2 ^ (52 + p) * unitsPerOne → IsNearestInt (x.value s / 10 ^ p) k) := by
  obtain ⟨f, hpower, hf⟩ := exists_powerOfTen hm hp'
  obtain ⟨y, k, hy, hk, hround⟩ := exists_toTens s x hf
  rw [halfEven_of_neg hx hm hp, hpower]
  have hd := scaled_pos_of_pow hf
  have hvalue : x.value s / 10 ^ p = signFactor s * (x.scaled / unitsPerOne / 10 ^ p) := by
    rw [value_eq, mul_div_assoc]
  have hnear := isNearest_of_magnitude s
    (div_nonneg (Nat.cast_nonneg _) (Nat.cast_nonneg _)) (isNearest_of_nearest hd hy)
  rw [cast_quotient hf, div_right_comm, ← hvalue] at hnear
  refine ⟨y, k, hnear, hk, hround, fun hlt => ?_⟩
  -- The sign is taken off for the rounded quotient and put back for the quotient.
  have hunsigned : ∀ r : ℚ, signFactor s * (signFactor s * r) = r := by
    intro r
    cases s <;> simp [signFactor]
  have hy' := isNearestInt_sign s hk
  rw [value_eq, hunsigned] at hy'
  have hx' := isNearestInt_sign s (isNearestInt_of_quotient hf hlt hy hy')
  rw [← hvalue] at hx'
  convert hx' using 1
  cases s <;> simp

/-- Multiples that numbers below `2 ^ 74` are rounded to are not past all numbers. -/
theorem isNearest_of_isRounded {n : Number} (hp : p ≤ 22)
    (hx : x.scaled < 2 ^ (52 + p) * unitsPerOne)
    (hk : IsNearestInt (x.value s / 10 ^ p) k) (h : n.IsRounded (k * 10 ^ p)) :
    n.IsNearest (k * 10 ^ p) := by
  have hten : (0 : ℚ) < 10 ^ p := pow_pos (by norm_num) p
  have habs : |x.value s / 10 ^ p| ≤ 2 ^ 52 := by
    have hpow : 2 ^ (52 + p) ≤ 2 ^ 52 * 10 ^ p := by
      rw [Nat.pow_add]
      exact Nat.mul_le_mul_left _ (Nat.pow_le_pow_left (by norm_num) p)
    rw [abs_div, abs_value, abs_of_pos hten, div_le_iff₀ hten, div_le_iff₀ cast_unitsPerOne_pos]
    exact_mod_cast hx.le.trans (Nat.mul_le_mul_right _ hpow)
  have hle := hk.point_le (j := 2 ^ 52) (by exact_mod_cast (abs_le.1 habs).2)
  have hge := hk.le_point (j := -2 ^ 52) (by exact_mod_cast (abs_le.1 habs).1)
  have hkabs : |(k : ℚ)| ≤ 2 ^ 52 := abs_le.2 ⟨by exact_mod_cast hge, by exact_mod_cast hle⟩
  obtain ⟨w, -, hw, hU⟩ := exists_unitsPerOne_eq
  obtain ⟨z, hz⟩ := exists_scaled (m := 2 ^ 52) (e := w + 74) (by norm_num) (by omega)
  have hzvalue : |z.value false| = 2 ^ 52 * 2 ^ 74 := by
    rw [abs_value, div_eq_iff cast_unitsPerOne_pos.ne', hz, Nat.pow_add, ← hU]
    push_cast
    ring
  refine h.isNearest (x := z) (s := false) ?_
  rw [hzvalue, abs_mul, abs_of_pos hten]
  refine mul_le_mul hkabs ?_ hten.le (by norm_num)
  exact (pow_le_pow_right₀ (by norm_num) hp).trans (by norm_num)

/-! ## Places -/

/-- Rounding to places, for a count of them that is whole. -/
theorem halfEven_of_nonneg {t : Bool} (hx : x.isZero = false) (hm : m.scaled = p * unitsPerOne)
    (hp : p ≤ 22) (ht : t = true → p = 0) :
    halfEven (finite s x) (finite t m) = toPlaces (finite s x) m := by
  have htens : (t && !m.isZero) = false := by
    cases t
    · rfl
    · rw [(isZero_iff hm).2 (ht rfl)]
      rfl
  have hplaces : less (.ofNat exactPlaces) (finite t m) = false := by
    obtain ⟨y, hy, hyscaled⟩ := exists_ofRatio_whole false (k := exactPlaces) (by decide)
    rw [ofNat, hy, ← Bool.not_eq_true, less_finite]
    have hle := Nat.mul_le_mul_right unitsPerOne (hp.trans (by decide : 22 ≤ exactPlaces))
    rw [← hm, ← hyscaled] at hle
    cases t <;> simp only [signed, if_true, if_false, Bool.false_eq_true] <;> omega
  rw [halfEven]
  simp [Number.isFinite, Number.isZero, hx, htens, hplaces]

/-- A number whose product with the power of ten does not reach `2 ^ 52` is rounded to the nearest
count of units. -/
theorem exists_toPlaces_of_lt (s : Bool) (hm : m.scaled = p * unitsPerOne) (hp : p ≤ 22)
    (hlt : 4 * (x.scaled * 10 ^ p) < (2 ^ 54 - 1) * unitsPerOne) :
    ∃ k : ℤ, IsNearestInt (x.value s * 10 ^ p) k ∧
      (toPlaces (finite s x) m).IsNearest (k / 10 ^ p) := by
  obtain ⟨f, hpower, hf⟩ := exists_powerOfTen hm hp
  have hten : (1 : ℚ) ≤ 10 ^ p := one_le_pow₀ (by norm_num)
  have hnear := isNearestInt_unitsAt x hp
  have hplaces : toPlaces (finite s x) m =
      if s then ((ofNat (unitsAt x p)).div (finite false f)).negate
      else (ofNat (unitsAt x p)).div (finite false f) := by
    rw [toPlaces, hpower, (less_integralMagnitude_iff hf).2 hlt, whole_of_scaled hm, Bool.not_true,
      if_neg Bool.false_ne_true]
  have hunits : unitsAt x p ≤ 2 ^ 52 := by
    have hscaled : x.scaled * 10 ^ p ≤ 2 ^ 52 * unitsPerOne := by
      have hpos := unitsPerOne_pos
      omega
    have hle : (x.scaled : ℚ) / unitsPerOne * 10 ^ p ≤ ((2 ^ 52 : ℤ) : ℚ) := by
      rw [div_mul_eq_mul_div, div_le_iff₀ cast_unitsPerOne_pos]
      exact_mod_cast hscaled
    have hpoint := hnear.point_le hle
    exact_mod_cast hpoint
  obtain ⟨u, hu⟩ := exists_multiple (k := unitsAt x p) (by omega)
  have hzero : f.isZero = false := by
    rw [← Bool.not_eq_true, isZero_iff hf]
    exact (Nat.pow_pos (by norm_num)).ne'
  have hquot : ((finite false u).div (finite false f)).IsNearest ((unitsAt x p : ℕ) / 10 ^ p) := by
    have hround := isRounded_div false false u hzero
    rw [value_of_scaled hu, value_of_scaled hf, Nat.cast_pow, Nat.cast_ofNat] at hround
    refine hround.isNearest (x := u) (s := false) ?_
    rw [value_of_scaled hu, abs_div, abs_of_pos (one_pos.trans_le hten)]
    exact div_le_self (abs_nonneg _) hten
  refine ⟨if s then -(unitsAt x p : ℕ) else (unitsAt x p : ℕ), ?_, ?_⟩
  · rw [value_eq, mul_assoc]
    exact isNearestInt_sign s hnear
  · rw [hplaces, ofNat_of_scaled hu]
    cases s
    · simpa using hquot
    · simpa [neg_div] using hquot.negate

/-- A number whose product with the power of ten reaches `2 ^ 52` is left alone. -/
theorem toPlaces_eq_self (s : Bool) (hm : m.scaled = p * unitsPerOne) (hp : p ≤ 22)
    (hge : (2 ^ 54 - 1) * unitsPerOne ≤ 4 * (x.scaled * 10 ^ p)) :
    toPlaces (finite s x) m = finite s x := by
  obtain ⟨f, hpower, hf⟩ := exists_powerOfTen hm hp
  have hless : ((finite false x).mul (finite false f)).less integralMagnitude = false := by
    rw [← Bool.not_eq_true, less_integralMagnitude_iff hf]
    omega
  rw [toPlaces, hpower, hless]
  rfl

/-! ## Numbers left alone -/

theorem isHalfEven_self_of_great (s : Bool) (h : 2 ^ 53 * unitsPerOne ≤ x.scaled * 10 ^ p) :
    IsHalfEven p (x.value s) (finite s x) := by
  obtain ⟨k, hk, hnear⟩ := exists_isNearest_of_great h
  have hnum := isNearest_of_magnitude s (mul_nonneg (div_nonneg (Nat.cast_nonneg _)
    (pow_nonneg (by norm_num) p)) cast_unitsPerOne_pos.le) hnear
  rw [mul_div_cancel_right₀ _ cast_unitsPerOne_pos.ne'] at hnum
  refine ⟨if s then -k else k, isNearestMultiple_of_int ?_, ?_⟩
  · rw [value_eq, mul_assoc, zpow_natCast]
    exact isNearestInt_sign s hk
  · convert hnum using 1
    cases s <;> simp [multiple, signFactor, div_eq_mul_inv]

/-- Integers are their own nearest integers. -/
theorem isHalfEven_self_of_isWhole (s : Bool) (hx : x.isWhole = true) :
    IsHalfEven 0 (x.value s) (finite s x) := by
  obtain ⟨k, hk⟩ := dvd_signed s hx
  have hvalue : x.value s = k := value_of_signed (hk.trans (mul_comm _ _))
  have hmultiple : multiple 0 k = x.value s := by
    rw [multiple, neg_zero, zpow_zero, mul_one, hvalue]
  refine ⟨k, isNearestMultiple_of_int ?_, ?_⟩
  · rw [zpow_zero, mul_one, hvalue]
    exact .self (fun k : ℤ => (k : ℚ)) Even k
  · rw [hmultiple]
    exact isNearest_self s x

theorem isHalfEven_zero (s : Bool) (d : ℤ) (hx : x.isZero = true) :
    x.value s = 0 ∧ IsHalfEven d (x.value s) (finite s x) := by
  have hvalue : x.value s = 0 := by
    rw [value_eq, isZero_iff_scaled.1 hx, Nat.cast_zero, zero_div, mul_zero]
  have hmultiple : multiple d 0 = x.value s := by
    rw [multiple, Int.cast_zero, zero_mul, hvalue]
  refine ⟨hvalue, 0, ?_, ?_⟩
  · have hself := IsNearestPoint.self (multiple d) Even 0
    rwa [hmultiple] at hself
  · rw [hmultiple]
    exact isNearest_self s x

/-! ## The result -/

theorem halfEven_of_isZero (s : Bool) (digits : Number) (hx : x.isZero = true) :
    halfEven (finite s x) digits = finite s x := by
  simp [halfEven, Number.isFinite, Number.isZero, hx]

theorem mul_zpow_neg (p : ℕ) (q : ℚ) : q * (10 : ℚ) ^ (-(p : ℤ)) = q / 10 ^ p := by
  rw [zpow_neg, zpow_natCast, div_eq_mul_inv]

theorem multiple_neg (p : ℕ) (k : ℤ) : multiple (-(p : ℤ)) k = k * 10 ^ p := by
  rw [multiple, neg_neg, zpow_natCast]

theorem multiple_natCast (p : ℕ) (k : ℤ) : multiple p k = k / 10 ^ p := by
  rw [multiple, mul_zpow_neg]

/-- Rounding to tens or higher powers of ten. -/
theorem halfEven_tens (s : Bool) (x : Magnitude) (hm : m.scaled = p * unitsPerOne) (hp : p ≠ 0)
    (hp' : p ≤ 22) :
    (|x.value s| < 2 ^ (52 + p) →
      IsHalfEven (-p) (x.value s) (halfEven (finite s x) (finite true m))) ∧
    ∃ t y k, (finite t y).IsNearest (x.value s * 10 ^ (-(p : ℤ))) ∧ IsNearestInt (y.value t) k ∧
      (halfEven (finite s x) (finite true m)).IsRounded (multiple (-p) k) := by
  cases hx : x.isZero with
  | true =>
    obtain ⟨hvalue, hself⟩ := isHalfEven_zero s (-p) hx
    rw [halfEven_of_isZero s _ hx]
    refine ⟨fun _ => hself, s, x, 0, ?_, ?_, ?_⟩
    · rw [hvalue, zero_mul, ← hvalue]
      exact isNearest_self s x
    · rw [hvalue]
      exact_mod_cast IsNearestPoint.self (fun k : ℤ => (k : ℚ)) Even 0
    · rw [multiple, Int.cast_zero, zero_mul, ← hvalue]
      exact .inl (isNearest_self s x)
  | false =>
    obtain ⟨y, k, hnear, hk, hround, hdecided⟩ := exists_halfEven_of_neg (s := s) hx hm hp hp'
    refine ⟨fun hlt => ?_, s, y, k, ?_, hk, ?_⟩
    · have hlt' : x.scaled < 2 ^ (52 + p) * unitsPerOne := by
        rw [abs_value, div_lt_iff₀ cast_unitsPerOne_pos] at hlt
        exact_mod_cast hlt
      have hint := hdecided hlt'
      refine ⟨k, isNearestMultiple_of_int ?_, ?_⟩
      · rwa [mul_zpow_neg]
      · rw [multiple_neg]
        exact isNearest_of_isRounded hp' hlt' hint hround
    · rwa [mul_zpow_neg]
    · rwa [multiple_neg]

/-- The bound for places, in units. -/
theorem abs_value_mul_lt_iff (s : Bool) (x : Magnitude) (p : ℕ) :
    |x.value s| * 10 ^ p < 2 ^ 52 - 1 / 4 ↔
      4 * (x.scaled * 10 ^ p) < (2 ^ 54 - 1) * unitsPerOne := by
  have hnat : 4 * (x.scaled * 10 ^ p) < (2 ^ 54 - 1) * unitsPerOne ↔
      4 * ((x.scaled : ℚ) * 10 ^ p) < (2 ^ 54 - 1) * unitsPerOne := by
    rw [show (2 ^ 54 - 1 : ℚ) = (2 ^ 54 - 1 : ℕ) by norm_num]
    norm_cast
  rw [hnat, abs_value, div_mul_eq_mul_div, div_lt_iff₀ cast_unitsPerOne_pos]
  constructor <;> intro h <;> linarith

/-- Rounding to places. -/
theorem halfEven_places {t : Bool} (s : Bool) (x : Magnitude) (hm : m.scaled = p * unitsPerOne)
    (hp : p ≤ 22) (ht : t = true → p = 0) :
    (p = 0 ∨ |x.value s| * 10 ^ p < 2 ^ 52 - 1 / 4 ∨ 2 ^ 53 ≤ |x.value s| * 10 ^ p →
      IsHalfEven p (x.value s) (halfEven (finite s x) (finite t m))) ∧
    (2 ^ 52 - 1 / 4 ≤ |x.value s| * 10 ^ p → halfEven (finite s x) (finite t m) = finite s x) := by
  cases hx : x.isZero with
  | true =>
    rw [halfEven_of_isZero s _ hx]
    exact ⟨fun _ => (isHalfEven_zero s p hx).2, fun _ => rfl⟩
  | false =>
    rw [halfEven_of_nonneg hx hm hp ht]
    by_cases hlt : 4 * (x.scaled * 10 ^ p) < (2 ^ 54 - 1) * unitsPerOne
    · have hbelow := (abs_value_mul_lt_iff s x p).2 hlt
      refine ⟨fun _ => ?_, fun hge => absurd hbelow (not_lt_of_ge hge)⟩
      obtain ⟨k, hk, hnear⟩ := exists_toPlaces_of_lt s hm hp hlt
      refine ⟨k, isNearestMultiple_of_int ?_, ?_⟩
      · rwa [zpow_natCast]
      · rwa [multiple_natCast]
    · rw [toPlaces_eq_self s hm hp (not_lt.1 hlt)]
      refine ⟨fun hcases => ?_, fun _ => rfl⟩
      rcases hcases with rfl | hbelow | hgreat
      · have hwhole : x.isWhole = true := by
          by_contra hw
          have hle := le_of_lt_pow (lt_of_not_isWhole (x := x) (by simpa using hw))
          have hpos := unitsPerOne_pos
          omega
        exact_mod_cast isHalfEven_self_of_isWhole s hwhole
      · exact absurd ((abs_value_mul_lt_iff s x p).1 hbelow) hlt
      · refine isHalfEven_self_of_great s ?_
        rw [abs_value, div_mul_eq_mul_div, le_div_iff₀ cast_unitsPerOne_pos] at hgreat
        exact_mod_cast hgreat

/-- Rounding to a whole count of digits gives the number nearest to the nearest multiple wherever it
is decided. For places it leaves all numbers alone from a quarter below `2 ^ 52` units on, and for
tens and higher powers it rounds the rounded quotient and multiplies back. -/
theorem halfEven_isHalfEven (s : Bool) (x : Magnitude) (digits : Number) (d : ℤ)
    (hdigits : digits.toInt? = some d) (hlow : -22 ≤ d) (hhigh : d ≤ 22) :
    (IsDecided d (x.value s) → IsHalfEven d (x.value s) (halfEven (finite s x) digits)) ∧
    (0 ≤ d → 2 ^ 52 - 1 / 4 ≤ |x.value s| * 10 ^ d →
      halfEven (finite s x) digits = finite s x) ∧
    (d < 0 → ∃ t y k, (finite t y).IsNearest (x.value s * 10 ^ d) ∧ IsNearestInt (y.value t) k ∧
      (halfEven (finite s x) digits).IsRounded (multiple d k)) := by
  obtain ⟨t, m, rfl, hm, hd⟩ := exists_of_toInt? hdigits
  generalize d.natAbs = p at hm hd
  by_cases hneg : d < 0
  · obtain rfl : t = true := by
      cases t
      · simp at hd
        omega
      · rfl
    obtain rfl : d = -p := by simpa using hd
    obtain ⟨hdecided, hrounded⟩ := halfEven_tens s x hm (by omega) (by omega)
    refine ⟨fun hcases => hdecided ?_, fun hnonneg => absurd hneg (not_lt_of_ge hnonneg),
      fun _ => hrounded⟩
    rcases hcases with ⟨-, hlt⟩ | hzero | ⟨hpos, -⟩
    · rw [sub_neg_eq_add] at hlt
      exact_mod_cast hlt
    · omega
    · omega
  · obtain rfl : d = p := by
      cases t
      · simpa using hd
      · simp at hd
        omega
    have hsign : t = true → p = 0 := by
      rintro rfl
      simp at hd
      omega
    obtain ⟨hdecided, hself⟩ := halfEven_places (t := t) s x hm (by omega) hsign
    refine ⟨fun hcases => hdecided ?_, fun _ hge => hself ?_, fun hlt => absurd hlt hneg⟩
    · rcases hcases with ⟨hlt, -⟩ | hzero | ⟨-, hbounds⟩
      · exact absurd hlt hneg
      · exact .inl (by omega)
      · rw [zpow_natCast] at hbounds
        exact .inr hbounds
    · rwa [zpow_natCast] at hge

/-- To hundreds, 1250 goes to the even multiple next to it. -/
theorem halfEven_isHalfEven_hundreds : ∃ x, Number.ofNat 1250 = finite false x ∧
    (Number.ofInt (-2)).toInt? = some (-2) ∧
    (halfEven (finite false x) (.ofInt (-2))).IsNearest 1200 := by
  obtain ⟨x, hx, hscaled⟩ := exists_ofRatio_whole false (k := 1250) (by norm_num)
  have hvalue : x.value false = 1250 := by exact_mod_cast value_of_scaled hscaled
  have hdigits : (Number.ofInt (-2)).toInt? = some (-2) :=
    toInt?_ofRatio true (k := 2) (by norm_num)
  have hdecided : IsDecided (-2) (x.value false) := by
    rw [hvalue]
    exact .inl ⟨by norm_num, by norm_num⟩
  obtain ⟨k, hk, hnear⟩ :=
    (halfEven_isHalfEven false x (.ofInt (-2)) (-2) hdigits (by norm_num) (by norm_num)).1 hdecided
  have hmultiple : ∀ j : ℤ, multiple (-2) j = j * 100 := by
    intro j
    norm_num [multiple]
  have hdist := hk.le 12
  simp only [hvalue, hmultiple] at hdist
  norm_num at hdist
  rw [abs_le] at hdist
  have hlow : 12 ≤ k := by exact_mod_cast (by linarith : (12 : ℚ) ≤ k)
  have hhigh : k ≤ 13 := by exact_mod_cast (by linarith : (k : ℚ) ≤ 13)
  have hk12 : k = 12 := by
    by_contra hne
    obtain rfl : k = 13 := by omega
    have heven := hk.even 12 (by norm_num [hmultiple]) (by norm_num [hmultiple, hvalue])
    exact absurd heven (by decide)
  rw [hk12, hmultiple] at hnear
  exact ⟨x, hx, hdigits, by norm_num at hnear; exact hnear⟩

/-- Rounding is not correct for all numbers and counts. To tens, 11258999068426254 goes to
11258999068426260 and not to 11258999068426250, for the quotient is rounded to a tie. -/
theorem not_forall_isHalfEven : ¬∀ (s : Bool) (x : Magnitude) (digits : Number) (d : ℤ),
    digits.toInt? = some d → -22 ≤ d → d ≤ 22 →
      IsHalfEven d (x.value s) (halfEven (finite s x) digits) := by
  intro h
  let x : Magnitude := ⟨5629499534213127, 1075, by decide, by decide, .inl (by decide)⟩
  let y : Magnitude := ⟨5629499534213130, 1075, by decide, by decide, .inl (by decide)⟩
  have hresult : halfEven (finite false x) (.ofInt (-1)) = finite false y := by decide +kernel
  have hx : x.value false = 11258999068426254 := by
    have hscaled : x.scaled = 11258999068426254 * unitsPerOne := by decide +kernel
    exact_mod_cast value_of_scaled hscaled
  have hy : y.value false = 11258999068426260 := by
    have hscaled : y.scaled = 11258999068426260 * unitsPerOne := by decide +kernel
    exact_mod_cast value_of_scaled hscaled
  have hdigits : (Number.ofInt (-1)).toInt? = some (-1) :=
    toInt?_ofRatio true (k := 1) (by norm_num)
  obtain ⟨k, hk, t, z, hz, hnear⟩ :=
    h false x (.ofInt (-1)) (-1) hdigits (by norm_num) (by norm_num)
  rw [hresult] at hz
  cases hz
  have hmultiple : ∀ j : ℤ, multiple (-1) j = j * 10 := by
    intro j
    norm_num [multiple]
  have hkdist := hk.le 1125899906842625
  have hdist := hnear.le (false, x)
  simp only [hx, hy, hmultiple] at hkdist hdist
  have hint : |k * 10 - 11258999068426254| ≤ |1125899906842625 * 10 - 11258999068426254| := by
    exact_mod_cast hkdist
  have hk' : k = 1125899906842625 := by
    rw [abs_le] at hint
    norm_num at hint
    omega
  rw [hk'] at hdist
  norm_num at hdist

end TreeExtraction.Rounding
