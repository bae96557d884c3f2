import Mathlib.Algebra.Order.Round
import Mathlib.Data.Rat.Floor
import Mathlib.Tactic.FieldSimp
import Mathlib.Tactic.Linarith
import TreeExtraction.Proofs.Number.Order

/-! # Nearest points

What rounding ought to find is a point of a grid: no other point is nearer to the value, and where
another one is as near, the point is even. Integers, magnitudes and numbers are such grids. The
rounding step of all arithmetic finds the nearest magnitude, and it finds none only past the
greatest.
-/

namespace TreeExtraction

/-! ## Grids -/

/-- A point of a grid is nearest to a value, and even if another point is as near. -/
structure IsNearestPoint {ι : Type} (point : ι → ℚ) (isEven : ι → Prop) (q : ℚ) (i : ι) : Prop where
  le : ∀ j, |point i - q| ≤ |point j - q|
  even : ∀ j, point j ≠ point i → |point j - q| = |point i - q| → isEven i

namespace IsNearestPoint

variable {ι : Type} {point : ι → ℚ} {isEven : ι → Prop} {q : ℚ} {i j : ι}

theorem point_le (h : IsNearestPoint point isEven q i) (hj : q ≤ point j) :
    point i ≤ point j := by
  have hdist := h.le j
  rw [abs_of_nonneg (sub_nonneg.2 hj)] at hdist
  linarith [le_abs_self (point i - q)]

theorem le_point (h : IsNearestPoint point isEven q i) (hj : point j ≤ q) :
    point j ≤ point i := by
  have hdist := h.le j
  rw [abs_of_nonpos (sub_nonpos.2 hj)] at hdist
  linarith [neg_abs_le (point i - q)]

/-- A point of the grid is nearest to itself. -/
theorem self (point : ι → ℚ) (isEven : ι → Prop) (i : ι) :
    IsNearestPoint point isEven (point i) i where
  le j := by simp
  even j hne hdist := by
    rw [sub_self, abs_zero, abs_eq_zero, sub_eq_zero] at hdist
    exact absurd hdist hne

theorem mul_left {c : ℚ} (hc : 0 < c) (h : IsNearestPoint point isEven q i) :
    IsNearestPoint (fun j => c * point j) isEven (c * q) i where
  le j := by
    rw [← mul_sub, ← mul_sub, abs_mul, abs_mul]
    exact mul_le_mul_of_nonneg_left (h.le j) (abs_nonneg c)
  even j hne hdist := by
    rw [← mul_sub, ← mul_sub, abs_mul, abs_mul] at hdist
    refine h.even j (fun heq => hne (by rw [heq])) ?_
    exact mul_left_cancel₀ (abs_pos.2 hc.ne').ne' hdist

end IsNearestPoint

/-! ## Integers -/

/-- An integer is nearest to a value. -/
abbrev IsNearestInt (q : ℚ) (k : ℤ) : Prop :=
  IsNearestPoint (fun k : ℤ => (k : ℚ)) Even q k

theorem isNearestInt_iff {q : ℚ} {k : ℤ} :
    IsNearestInt q k ↔ |(k : ℚ) - q| ≤ 1 / 2 ∧ (|(k : ℚ) - q| = 1 / 2 → Even k) := by
  constructor
  · intro h
    have hle : |(k : ℚ) - q| ≤ 1 / 2 := by
      refine (h.le (round q)).trans ?_
      rw [abs_sub_comm]
      exact abs_sub_round q
    refine ⟨hle, fun htie => ?_⟩
    -- The integer on the other side of the value is as near.
    rcases eq_or_eq_neg_of_abs_eq htie with hk | hk
    · refine h.even (k - 1) (by simp) ?_
      rw [htie, Int.cast_sub, Int.cast_one, show (k : ℚ) - 1 - q = -(1 / 2) by linarith, abs_neg]
      exact abs_of_pos (by norm_num)
    · refine h.even (k + 1) (by simp) ?_
      rw [htie, Int.cast_add, Int.cast_one, show (k : ℚ) + 1 - q = 1 / 2 by linarith]
      exact abs_of_pos (by norm_num)
  · rintro ⟨hle, htie⟩
    -- Any other integer is at least one away.
    have hfar : ∀ j : ℤ, j ≠ k → 1 - |(k : ℚ) - q| ≤ |(j : ℚ) - q| := by
      intro j hj
      have hone : (1 : ℚ) ≤ |(j : ℚ) - k| := by
        exact_mod_cast Int.one_le_abs (sub_ne_zero.2 hj)
      have htri := abs_sub_le (j : ℚ) q k
      rw [abs_sub_comm q] at htri
      linarith
    refine ⟨fun j => ?_, fun j hne hdist => htie ?_⟩
    · by_cases hj : j = k
      · rw [hj]
      · linarith [hfar j hj]
    · linarith [hfar j (fun hj => hne (by rw [hj]))]

theorem IsNearestInt.neg {q : ℚ} {k : ℤ} (h : IsNearestInt q k) : IsNearestInt (-q) (-k) := by
  rw [isNearestInt_iff] at h ⊢
  rw [Int.cast_neg, neg_sub_neg, abs_sub_comm, even_neg]
  exact h

/-- The nearest integer of an approximation is that of the value itself, if the approximation does
not pass a half that the value does not pass and reaches a half only where the value is one. -/
theorem IsNearestInt.of_approximation {p q : ℚ} {k : ℤ} (h : IsNearestInt p k)
    (hle : ∀ j : ℤ, q ≤ j + 1 / 2 → p ≤ j + 1 / 2)
    (hge : ∀ j : ℤ, (j : ℚ) + 1 / 2 ≤ q → j + 1 / 2 ≤ p)
    (heq : ∀ j : ℤ, p = j + 1 / 2 → q = j + 1 / 2) : IsNearestInt q k := by
  rw [isNearestInt_iff, abs_le] at h ⊢
  obtain ⟨⟨hlow, hhigh⟩, htie⟩ := h
  have hbelow : ((k - 1 : ℤ) : ℚ) = k - 1 := by push_cast; ring
  have hq : q ≤ k + 1 / 2 := by
    by_contra hlt
    have hp := hge k (by linarith)
    linarith [heq k (by linarith)]
  have hq' : (k : ℚ) - 1 / 2 ≤ q := by
    by_contra hlt
    have hp := hle (k - 1) (by rw [hbelow]; linarith)
    rw [hbelow] at hp
    have := heq (k - 1) (by rw [hbelow]; linarith)
    rw [hbelow] at this
    linarith
  refine ⟨⟨by linarith, by linarith⟩, fun hdist => htie ?_⟩
  rcases eq_or_eq_neg_of_abs_eq hdist with hk | hk
  · have hp := hle (k - 1) (by rw [hbelow]; linarith)
    rw [hbelow] at hp
    rw [show (k : ℚ) - p = 1 / 2 by linarith]
    exact abs_of_pos (by norm_num)
  · have hp := hge k (by linarith)
    rw [show (k : ℚ) - p = -(1 / 2) by linarith, abs_neg]
    exact abs_of_pos (by norm_num)

theorem IsNearestInt.of_approximation_nonneg {p q : ℚ} {k : ℤ} (h : IsNearestInt p k)
    (hp : 0 ≤ p) (hq : 0 ≤ q) (hle : ∀ j : ℕ, q ≤ j + 1 / 2 → p ≤ j + 1 / 2)
    (hge : ∀ j : ℕ, (j : ℚ) + 1 / 2 ≤ q → j + 1 / 2 ≤ p)
    (heq : ∀ j : ℕ, p = j + 1 / 2 → q = j + 1 / 2) : IsNearestInt q k := by
  -- Negative halves lie below both values.
  have hneg : ∀ j : ℤ, j < 0 → (j : ℚ) + 1 / 2 < 0 := by
    intro j hj
    have hone : (j : ℚ) ≤ -1 := by exact_mod_cast (by omega : j ≤ -1)
    linarith
  refine h.of_approximation (fun j hj => ?_) (fun j hj => ?_) (fun j hj => ?_) <;>
    rcases lt_or_ge j 0 with hj' | hj'
  · linarith [hneg j hj']
  · lift j to ℕ using hj'
    exact hle j hj
  · linarith [hneg j hj']
  · lift j to ℕ using hj'
    exact hge j hj
  · linarith [hneg j hj']
  · lift j to ℕ using hj'
    exact heq j hj

theorem isNearestInt_div_iff {i u k : ℤ} (hu : 0 < u) :
    IsNearestInt ((i : ℚ) / u) k ↔
      2 * |k * u - i| ≤ u ∧ (2 * |k * u - i| = u → Even k) := by
  have hu' : (0 : ℚ) < u := by exact_mod_cast hu
  have hdist : |(k : ℚ) - i / u| = |(k : ℚ) * u - i| / u := by
    rw [← mul_div_cancel_right₀ (k : ℚ) hu'.ne', ← sub_div, abs_div, abs_of_pos hu',
      mul_div_cancel_right₀ _ hu'.ne']
  rw [isNearestInt_iff, hdist, div_le_div_iff₀ hu' two_pos, div_eq_div_iff hu'.ne' two_ne_zero,
    one_mul, mul_comm _ (2 : ℚ)]
  norm_cast

theorem isNearestInt_roundEven (a : ℕ) {d : ℕ} (hd : 0 < d) :
    IsNearestInt ((a : ℚ) / d) (roundEven a d : ℕ) := by
  have hsum : (a : ℤ) = (a / d : ℕ) * d + (a % d : ℕ) := by
    exact_mod_cast (Nat.div_add_mod' a d).symm
  have hlt := Nat.mod_lt a hd
  have hiff := isNearestInt_div_iff (i := a) (u := d) (k := (roundEven a d : ℕ)) (by omega)
  rw [Int.cast_natCast, Int.cast_natCast] at hiff
  rw [hiff, Int.even_coe_nat, Nat.even_iff, hsum, roundEven]
  -- Every case leaves one distance, the remainder or what it lacks to the divisor.
  have hbelow : |((a / d : ℕ) : ℤ) * d - ((a / d : ℕ) * d + (a % d : ℕ))| = (a % d : ℕ) := by
    rw [sub_add_cancel_left, abs_neg, Nat.abs_cast]
  have habove : |((a / d + 1 : ℕ) : ℤ) * d - ((a / d : ℕ) * d + (a % d : ℕ))| =
      d - (a % d : ℕ) := by
    rw [Nat.cast_add, Nat.cast_one, add_mul, one_mul, add_sub_add_left_eq_sub]
    exact abs_of_nonneg (by omega)
  split_ifs
  · rw [hbelow]
    omega
  · rw [habove]
    omega
  · rw [hbelow]
    omega
  · rw [habove]
    omega

/-! ## Magnitudes -/

theorem roundEven_le {a d c : ℕ} (hd : 0 < d) (h : a ≤ c * d) : roundEven a d ≤ c := by
  have hnear := isNearestInt_roundEven a hd
  have hpoint : (a : ℚ) / d ≤ ((c : ℤ) : ℚ) := by
    rw [div_le_iff₀ (by exact_mod_cast hd)]
    exact_mod_cast h
  exact_mod_cast hnear.point_le hpoint

theorem le_roundEven {a d c : ℕ} (hd : 0 < d) (h : c * d ≤ a) : c ≤ roundEven a d :=
  ((Nat.le_div_iff_mul_le hd).2 h).trans (Magnitude.div_le_roundEven a d)

namespace Magnitude

/-- A magnitude is nearest to a value in units. -/
abbrev IsNearest (x : Magnitude) (q : ℚ) : Prop :=
  IsNearestPoint (fun y : Magnitude => (y.scaled : ℚ)) (fun y => Even y.mantissa) q x

variable {x y : Magnitude} {a d : ℕ}

/-- The exponent of a rounded quotient, before a carry. -/
def exponentOf (a d : ℕ) : ℕ :=
  (a / d).log2 - 52

theorem nearest_eq (a d : ℕ) : nearest a d =
    if roundEven a (d * 2 ^ exponentOf a d) = 2 ^ 53 then ofParts? (2 ^ 52) (exponentOf a d + 1)
    else ofParts? (roundEven a (d * 2 ^ exponentOf a d)) (exponentOf a d) := rfl

/-- A quotient whose exponent is not the least is normal. -/
theorem pow_mul_le_of_exponentOf (h : exponentOf a d ≠ 0) :
    2 ^ 52 * (d * 2 ^ exponentOf a d) ≤ a := by
  have hlog : 52 + exponentOf a d = (a / d).log2 := by
    rw [exponentOf] at h ⊢
    omega
  have hne : a / d ≠ 0 := by
    intro hzero
    rw [hzero] at hlog
    exact absurd hlog (by simp [Nat.log2_zero])
  calc 2 ^ 52 * (d * 2 ^ exponentOf a d) = 2 ^ (a / d).log2 * d := by
        rw [← hlog, Nat.pow_add]
        ring
    _ ≤ a / d * d := Nat.mul_le_mul_right d (Nat.log2_self_le hne)
    _ ≤ a := Nat.div_mul_le_self a d

theorem lt_of_exponentOf (hd : 0 < d) : a < 2 ^ 53 * (d * 2 ^ exponentOf a d) := by
  have hlt : a / d < 2 ^ (53 + exponentOf a d) :=
    Nat.lt_log2_self.trans_le (Nat.pow_le_pow_right (by decide) (by rw [exponentOf]; omega))
  calc a < 2 ^ (53 + exponentOf a d) * d := (Nat.div_lt_iff_lt_mul hd).1 hlt
    _ = 2 ^ 53 * (d * 2 ^ exponentOf a d) := by
      rw [Nat.pow_add]
      ring

theorem ofParts?_mantissa {m e : ℕ} (h : ofParts? m e = some x) : x.mantissa = m := by
  unfold ofParts? at h
  split at h
  · cases h
    rfl
  · cases h

theorem scaled_of_nearest (h : nearest a d = some x) :
    x.scaled = roundEven a (d * 2 ^ exponentOf a d) * 2 ^ exponentOf a d := by
  rw [nearest_eq] at h
  split at h
  · next hcarry =>
    rw [ofParts?_scaled h, hcarry, Nat.pow_succ]
    ring
  · exact ofParts?_scaled h

theorem even_of_nearest (h : nearest a d = some x)
    (heven : Even (roundEven a (d * 2 ^ exponentOf a d))) : Even x.mantissa := by
  rw [nearest_eq] at h
  split at h
  · rw [ofParts?_mantissa h]
    exact ⟨2 ^ 51, by norm_num⟩
  · rw [ofParts?_mantissa h]
    exact heven

/-- Magnitudes of a lesser exponent lie below the normal ones. -/
theorem scaled_lt_of_exponent_lt_pow {e : ℕ} (h : y.exponent < e) : y.scaled < 2 ^ 52 * 2 ^ e :=
  calc y.scaled = y.mantissa * 2 ^ y.exponent := scaled_eq y
    _ < 2 ^ 53 * 2 ^ y.exponent := Nat.mul_lt_mul_of_pos_right y.mantissa_lt (by positivity)
    _ = 2 ^ 52 * 2 ^ (y.exponent + 1) := by rw [Nat.pow_succ, Nat.pow_succ]; ring
    _ ≤ 2 ^ 52 * 2 ^ e := Nat.mul_le_mul_left _ (Nat.pow_le_pow_right (by decide) h)

theorem exponent_lt_of_scaled_lt {e : ℕ} (he : 0 < e) (h : y.scaled < 2 ^ 52 * 2 ^ e) :
    y.exponent < e := by
  by_contra hge
  rcases y.normal with hn | hzero
  · have hle : 2 ^ 52 * 2 ^ e ≤ y.mantissa * 2 ^ y.exponent :=
      Nat.mul_le_mul hn (Nat.pow_le_pow_right two_pos (Nat.le_of_not_lt hge))
    rw [← scaled_eq] at hle
    omega
  · omega

/-- The rounding step finds the nearest magnitude. -/
theorem isNearest_of_nearest (hd : 0 < d) (h : nearest a d = some x) :
    x.IsNearest ((a : ℚ) / d) := by
  have hscaled := scaled_of_nearest h
  have heven := even_of_nearest h
  have hd' : (0 : ℚ) < d := by exact_mod_cast hd
  generalize he : exponentOf a d = e at hscaled heven
  have hround := isNearestInt_roundEven a (Nat.mul_pos hd (Nat.two_pow_pos e))
  -- Among the multiples of a power of two the magnitude is nearest.
  have hgrid := hround.mul_left (c := 2 ^ e) (by positivity)
  rw [show (2 : ℚ) ^ e * (a / (d * 2 ^ e : ℕ)) = a / d by push_cast; field_simp] at hgrid
  have hpoint : (x.scaled : ℚ) = 2 ^ e * ((roundEven a (d * 2 ^ e) : ℕ) : ℤ) := by
    rw [hscaled]
    push_cast
    ring
  have hcoarse : ∀ y : Magnitude, e ≤ y.exponent → ∃ k : ℤ, (y.scaled : ℚ) = 2 ^ e * k := by
    intro y hy
    refine ⟨y.mantissa * 2 ^ (y.exponent - e), ?_⟩
    rw [scaled_eq, ← Nat.add_sub_cancel' hy, Nat.pow_add]
    push_cast
    rw [Nat.add_sub_cancel_left]
    ring
  -- Magnitudes between those multiples lie below the least normal one, which is nearer.
  have hfine : ∀ y : Magnitude, y.exponent < e →
      |(x.scaled : ℚ) - a / d| < |(y.scaled : ℚ) - a / d| := by
    intro y hy
    have hbelow := scaled_lt_of_exponent_lt_pow hy
    have hnormal := pow_mul_le_of_exponentOf (a := a) (d := d) (by omega)
    have hdist := hgrid.le ((2 ^ 52 : ℕ) : ℤ)
    have hleast : (2 : ℚ) ^ e * ((2 ^ 52 : ℕ) : ℤ) = (2 ^ 52 * 2 ^ e : ℕ) := by push_cast; ring
    rw [he, Nat.mul_left_comm, Nat.mul_comm] at hnormal
    rw [← hpoint, hleast] at hdist
    generalize 2 ^ 52 * 2 ^ e = least at hbelow hnormal hdist
    have hbelow' : (y.scaled : ℚ) < least := by exact_mod_cast hbelow
    have hnormal' : (least : ℚ) ≤ a / d := by
      rw [le_div_iff₀ hd']
      exact_mod_cast hnormal
    rw [abs_of_nonpos (by linarith : (least : ℚ) - a / d ≤ 0)] at hdist
    rw [abs_of_nonpos (by linarith : (y.scaled : ℚ) - a / d ≤ 0)]
    linarith
  refine ⟨fun y => ?_, fun y hne hdist => ?_⟩
  · rcases Nat.lt_or_ge y.exponent e with hy | hy
    · exact (hfine y hy).le
    · obtain ⟨k, hk⟩ := hcoarse y hy
      rw [hk, hpoint]
      exact hgrid.le k
  · rcases Nat.lt_or_ge y.exponent e with hy | hy
    · exact absurd hdist (hfine y hy).ne'
    · obtain ⟨k, hk⟩ := hcoarse y hy
      rw [hk, hpoint] at hne hdist
      exact heven ((Int.even_coe_nat _).1 (hgrid.even k hne hdist))

/-- There is a nearest magnitude to a value that is not past the greatest one. -/
theorem exists_nearest (hd : 0 < d) (h : a ≤ y.scaled * d) : ∃ x, nearest a d = some x := by
  have hpos : 0 < d * 2 ^ exponentOf a d := by positivity
  have hle : roundEven a (d * 2 ^ exponentOf a d) ≤ 2 ^ 53 :=
    roundEven_le hpos (lt_of_exponentOf hd).le
  have hnormal : exponentOf a d ≠ 0 → 2 ^ 52 ≤ roundEven a (d * 2 ^ exponentOf a d) := fun hne =>
    le_roundEven hpos (pow_mul_le_of_exponentOf hne)
  have hexponent : exponentOf a d ≤ y.exponent := by
    by_contra hgt
    have hlow := pow_mul_le_of_exponentOf (a := a) (d := d) (by omega)
    have hhigh := Nat.mul_lt_mul_of_pos_right
      (scaled_lt_of_exponent_lt_pow (Nat.lt_of_not_le hgt)) hd
    rw [Nat.mul_left_comm, Nat.mul_comm] at hlow
    exact absurd (hlow.trans h) (Nat.not_le_of_lt hhigh)
  have hcarry : roundEven a (d * 2 ^ exponentOf a d) = 2 ^ 53 → exponentOf a d < y.exponent := by
    intro hm
    by_contra hge
    have hy : y.scaled ≤ (2 ^ 53 - 1) * 2 ^ exponentOf a d := by
      rw [scaled_eq]
      have hmantissa := y.mantissa_lt
      exact Nat.mul_le_mul (by omega) (Nat.pow_le_pow_right (by decide) (Nat.le_of_not_lt hge))
    have hround := roundEven_le (a := a) (c := 2 ^ 53 - 1) hpos <|
      calc a ≤ y.scaled * d := h
        _ ≤ (2 ^ 53 - 1) * 2 ^ exponentOf a d * d := Nat.mul_le_mul_right d hy
        _ = (2 ^ 53 - 1) * (d * 2 ^ exponentOf a d) := by ring
    omega
  have hmax := y.exponent_le
  rw [nearest_eq]
  split
  · next hm =>
    exact ⟨_, dif_pos ⟨by norm_num, (hcarry hm).trans_le hmax, .inl (by norm_num)⟩⟩
  · next hm =>
    refine ⟨_, dif_pos ⟨by omega, hexponent.trans hmax, ?_⟩⟩
    by_cases hzero : exponentOf a d = 0
    · exact .inr hzero
    · exact .inl (hnormal hzero)

/-- A normal quotient is off by at most one half in the last of its 53 binary digits. -/
theorem error_of_nearest (hd : 0 < d) (h : nearest a d = some x) (ha : 2 ^ 52 * d ≤ a) :
    |(x.scaled : ℚ) - a / d| * 2 ^ 53 ≤ a / d := by
  have hd' : (0 : ℚ) < d := by exact_mod_cast hd
  have hscaled := scaled_of_nearest h
  have hround := (isNearestInt_iff.1
    (isNearestInt_roundEven a (Nat.mul_pos hd (Nat.two_pow_pos (exponentOf a d))))).1
  have hnormal : 2 ^ 52 * (d * 2 ^ exponentOf a d) ≤ a := by
    by_cases hzero : exponentOf a d = 0
    · rwa [hzero, Nat.pow_zero, Nat.mul_one]
    · exact pow_mul_le_of_exponentOf hzero
  generalize exponentOf a d = e at hscaled hround hnormal
  have hpow : (0 : ℚ) < 2 ^ e := by positivity
  have hlow : 2 ^ 52 * (2 : ℚ) ^ e ≤ a / d := by
    rw [le_div_iff₀ hd']
    exact_mod_cast (by linarith : 2 ^ 52 * 2 ^ e * d ≤ a)
  have hdist : |(x.scaled : ℚ) - a / d| =
      2 ^ e * |((roundEven a (d * 2 ^ e) : ℤ) : ℚ) - a / (d * 2 ^ e : ℕ)| := by
    have hunits : (x.scaled : ℚ) - a / d =
        2 ^ e * (((roundEven a (d * 2 ^ e) : ℤ) : ℚ) - a / (d * 2 ^ e : ℕ)) := by
      rw [hscaled]
      push_cast
      field_simp
    rw [hunits, abs_mul, abs_of_pos hpow]
  rw [hdist]
  linarith [mul_le_mul_of_nonneg_left hround hpow.le]

/-- The rational number that a sign and a magnitude denote. -/
def value (negative : Bool) (x : Magnitude) : ℚ :=
  x.signed negative / unitsPerOne

end Magnitude

/-! ## Numbers -/

namespace Number

open Magnitude

variable {n : Number} {x : Magnitude} {q : ℚ} {a d : ℕ}

/-- A number is finite and nearest to a value; its mantissa is even if another number is as near. -/
def IsNearest (n : Number) (q : ℚ) : Prop :=
  ∃ negative x, n = .finite negative x ∧
    IsNearestPoint (fun p : Bool × Magnitude => p.2.value p.1) (fun p => Even p.2.mantissa) q
      (negative, x)

/-- A number is what a value is rounded to: nearest to it, or infinite where the value is past all
finite numbers. -/
def IsRounded (n : Number) (q : ℚ) : Prop :=
  n.IsNearest q ∨ ∃ negative, n = .infinite negative ∧ ∀ s (x : Magnitude), |x.value s| < |q|

/-- The factor that a sign stands for. -/
def signFactor (negative : Bool) : ℚ :=
  if negative then -1 else 1

theorem abs_signFactor_mul (negative : Bool) (q : ℚ) : |signFactor negative * q| = |q| := by
  cases negative <;> simp [signFactor]

theorem value_eq (negative : Bool) (x : Magnitude) :
    x.value negative = signFactor negative * (x.scaled / unitsPerOne) := by
  rw [value, signed]
  generalize (unitsPerOne : ℚ) = u
  cases negative <;> simp [signFactor, neg_div]

theorem cast_unitsPerOne_pos : (0 : ℚ) < unitsPerOne := by
  exact_mod_cast unitsPerOne_pos

theorem value_of_signed {negative : Bool} {k : ℤ} (h : x.signed negative = k * unitsPerOne) :
    x.value negative = k := by
  rw [value, h, Int.cast_mul, Int.cast_natCast, mul_div_cancel_right₀ _ cast_unitsPerOne_pos.ne']

theorem value_of_scaled {c : ℕ} (h : x.scaled = c * unitsPerOne) : x.value false = c := by
  rw [value_eq, h, Nat.cast_mul, mul_div_cancel_right₀ _ cast_unitsPerOne_pos.ne', signFactor,
    if_neg Bool.false_ne_true, one_mul]

/-- In units, numbers of the other sign lie on the other side of zero. -/
theorem abs_value_sub (s negative : Bool) (y : Magnitude) (q : ℚ) :
    |y.value s - signFactor negative * (q / unitsPerOne)| =
      |(if s = negative then (y.scaled : ℚ) else -y.scaled) - q| / unitsPerOne := by
  have hsign : y.value s - signFactor negative * (q / unitsPerOne) = signFactor negative *
      (((if s = negative then (y.scaled : ℚ) else -y.scaled) - q) / unitsPerOne) := by
    rw [value_eq]
    generalize (unitsPerOne : ℚ) = u
    cases s <;> cases negative <;> simp [signFactor] <;> ring
  rw [hsign, abs_signFactor_mul, abs_div, abs_of_pos cast_unitsPerOne_pos]

/-- A nearest magnitude with the sign of the value is a nearest number. -/
theorem isNearest_of_magnitude (negative : Bool) (hq : 0 ≤ q) (h : x.IsNearest q) :
    (finite negative x).IsNearest (signFactor negative * (q / unitsPerOne)) := by
  have hU := cast_unitsPerOne_pos
  have hzero : (Magnitude.zero.scaled : ℚ) = 0 := by simp [scaled, Magnitude.zero]
  have hnear0 := h.le .zero
  rw [hzero, zero_sub, abs_neg, abs_of_nonneg hq] at hnear0
  have hother : ∀ y : Magnitude, |-(y.scaled : ℚ) - q| = y.scaled + q := by
    intro y
    rw [← neg_add', abs_neg]
    exact abs_of_nonneg (add_nonneg (Nat.cast_nonneg _) hq)
  refine ⟨negative, x, rfl, ?_, ?_⟩
  · rintro ⟨s, y⟩
    rw [abs_value_sub, abs_value_sub, if_pos rfl, div_le_div_iff_of_pos_right hU]
    split
    · exact h.le y
    · rw [hother]
      linarith [(Nat.cast_nonneg y.scaled : (0 : ℚ) ≤ y.scaled)]
  · rintro ⟨s, y⟩ hne hdist
    rw [abs_value_sub, abs_value_sub, if_pos rfl, div_left_inj' hU.ne'] at hdist
    split at hdist
    · next hs =>
      have hs' : s = negative := hs
      refine h.even y (fun heq => hne ?_) hdist
      simp only [value_eq, hs']
      rw [heq]
    · -- On the other side only zero is as near, and zero is on this side too.
      rw [hother] at hdist
      have hy := (Nat.cast_nonneg y.scaled : (0 : ℚ) ≤ y.scaled)
      have hy0 : (y.scaled : ℚ) = 0 := by linarith
      refine h.even .zero (fun heq => hne ?_) ?_
      · simp only [value_eq, hy0]
        rw [← heq, hzero, zero_div, mul_zero, mul_zero]
      · rw [hzero, zero_sub, abs_neg, abs_of_nonneg hq]
        linarith

/-- The rounding step gives the number that a value is rounded to. -/
theorem isRounded_ofMagnitude (negative : Bool) (a : ℕ) (hd : 0 < d) :
    (ofMagnitude negative (nearest a d)).IsRounded
      (signFactor negative * ((a : ℚ) / d / unitsPerOne)) := by
  cases h : nearest a d with
  | some x =>
    exact .inl (isNearest_of_magnitude negative (by positivity) (isNearest_of_nearest hd h))
  | none =>
    refine .inr ⟨negative, rfl, fun s y => ?_⟩
    have hlt : y.scaled * d < a := by
      by_contra hle
      obtain ⟨x, hx⟩ := exists_nearest hd (Nat.le_of_not_lt hle)
      rw [h] at hx
      cases hx
    have hU := cast_unitsPerOne_pos
    rw [value_eq, abs_signFactor_mul, abs_signFactor_mul, abs_div, abs_div, abs_of_pos hU,
      div_lt_div_iff_of_pos_right hU, Nat.abs_cast,
      abs_of_nonneg (div_nonneg (Nat.cast_nonneg a) (Nat.cast_nonneg d)),
      lt_div_iff₀ (by exact_mod_cast hd)]
    exact_mod_cast hlt

theorem signFactor_bne (s t : Bool) : signFactor (s != t) = signFactor s * signFactor t := by
  cases s <;> cases t <;> simp [signFactor]

theorem isRounded_mul (s t : Bool) (x y : Magnitude) :
    (mul (finite s x) (finite t y)).IsRounded (x.value s * y.value t) := by
  have hU := cast_unitsPerOne_pos.ne'
  have hround := isRounded_ofMagnitude (s != t) (x.scaled * y.scaled) unitsPerOne_pos
  rwa [signFactor_bne, Nat.cast_mul, mul_div_assoc, mul_div_right_comm, mul_mul_mul_comm,
    ← value_eq, ← value_eq] at hround

theorem isRounded_div (s t : Bool) (x : Magnitude) {y : Magnitude} (hy : y.isZero = false) :
    (div (finite s x) (finite t y)).IsRounded (x.value s / y.value t) := by
  have hU := cast_unitsPerOne_pos.ne'
  have hy' : (y.scaled : ℚ) ≠ 0 := by exact_mod_cast scaled_ne_zero hy
  have hround := isRounded_ofMagnitude (s != t) (x.scaled * unitsPerOne)
    (Nat.pos_of_ne_zero (scaled_ne_zero hy))
  have hdiv : div (finite s x) (finite t y) =
      ofMagnitude (s != t) (nearest (x.scaled * unitsPerOne) y.scaled) := by
    rw [div, hy]
    rfl
  have hvalue : x.value s / y.value t =
      signFactor (s != t) * (((x.scaled * unitsPerOne : ℕ) : ℚ) / y.scaled / unitsPerOne) := by
    rw [value_eq, value_eq, Nat.cast_mul]
    generalize (unitsPerOne : ℚ) = u at hU ⊢
    cases s <;> cases t <;> simp only [signFactor, bne_self_eq_false, if_true, if_false,
      Bool.false_eq_true, Bool.bne_true, Bool.bne_false, Bool.not_false] <;>
      field_simp
  rwa [hdiv, hvalue]

/-- Nothing is rounded to an infinity that is not past a finite number. -/
theorem IsRounded.isNearest {s : Bool} (h : n.IsRounded q) (hle : |q| ≤ |x.value s|) :
    n.IsNearest q := by
  rcases h with h | ⟨-, -, hpast⟩
  · exact h
  · exact absurd hle (not_le_of_gt (hpast s x))

theorem value_not (negative : Bool) (x : Magnitude) : x.value (!negative) = -x.value negative := by
  rw [value, value, signed_not, Int.cast_neg, neg_div]

theorem IsNearest.negate (h : n.IsNearest q) : n.negate.IsNearest (-q) := by
  obtain ⟨s, x, rfl, hnear⟩ := h
  have hdist : ∀ (t : Bool) (y : Magnitude), |y.value t - -q| = |y.value (!t) - q| := by
    intro t y
    rw [value_not, ← abs_neg, neg_sub', neg_neg]
  refine ⟨!s, x, rfl, ?_, ?_⟩
  · rintro ⟨t, y⟩
    rw [hdist, hdist, Bool.not_not]
    exact hnear.le (!t, y)
  · rintro ⟨t, y⟩ hne heq
    rw [hdist, hdist, Bool.not_not] at heq
    refine hnear.even (!t, y) (fun hval => hne ?_) heq
    rw [← neg_inj, ← value_not, ← value_not, Bool.not_not]
    exact hval

theorem isNearest_self (s : Bool) (x : Magnitude) : (finite s x).IsNearest (x.value s) :=
  ⟨s, x, rfl, .self (fun p : Bool × Magnitude => p.2.value p.1) (fun p => Even p.2.mantissa) (s, x)⟩

/-- A sign goes with the nearest integer. -/
theorem isNearestInt_sign (s : Bool) {k : ℤ} (h : IsNearestInt q k) :
    IsNearestInt (signFactor s * q) (if s then -k else k) := by
  cases s
  · simpa [signFactor] using h
  · simpa [signFactor] using h.neg

end Number

end TreeExtraction
