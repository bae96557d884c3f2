import TreeExtraction.Number.Power
import TreeExtraction.Proofs.Number.Nearest

/-! # Exact arithmetic

Where the exact result of an operation is a magnitude, the operation gives it: rounding leaves it
alone. Counts of units are such results below the magnitude that they are counted off, and so are
whole numbers up to `2 ^ 53`. Floors and nearest integers are always exact.
-/

namespace TreeExtraction

namespace Magnitude

variable {x y : Magnitude}

/-- A lesser multiple of the last binary digit of a magnitude is a magnitude. -/
theorem exists_of_dvd {c : ℕ} (hle : c ≤ x.scaled) (hdvd : 2 ^ x.exponent ∣ c) :
    ∃ z : Magnitude, z.scaled = c := by
  obtain ⟨k, rfl⟩ := hdvd
  have hk : k ≤ x.mantissa := by
    rw [scaled_eq, Nat.mul_comm] at hle
    exact Nat.le_of_mul_le_mul_right hle (by positivity)
  obtain ⟨z, hz⟩ := exists_scaled (hk.trans_lt x.mantissa_lt) x.exponent_le
  exact ⟨z, by rw [hz, Nat.mul_comm]⟩

/-- A whole number up to `2 ^ 53` is a magnitude. -/
theorem exists_multiple {k : ℕ} (hk : k ≤ 2 ^ 53) :
    ∃ z : Magnitude, z.scaled = k * unitsPerOne := by
  rcases hk.lt_or_eq with hlt | rfl
  · exact exists_whole hlt
  · obtain ⟨w, -, hw, hU⟩ := exists_unitsPerOne_eq
    obtain ⟨z, hz⟩ := exists_scaled (m := 2 ^ 52) (e := w + 1) (by norm_num) (by omega)
    refine ⟨z, ?_⟩
    rw [hz, hU, Nat.pow_succ]
    ring

theorem exists_half_unitsPerOne : ∃ v, 999 ≤ v ∧ v ≤ 1499 ∧ unitsPerOne = 2 * 2 ^ v := by
  obtain ⟨w, hw, hle, hU⟩ := exists_unitsPerOne_eq
  refine ⟨w - 1, by omega, by omega, ?_⟩
  rw [hU, ← Nat.pow_succ', Nat.succ_eq_add_one, Nat.sub_add_cancel (by omega)]

/-- Halves below `2 ^ 52` are magnitudes. -/
theorem exists_half {j : ℕ} (hj : j < 2 ^ 52) :
    ∃ z : Magnitude, 2 * z.scaled = (2 * j + 1) * unitsPerOne := by
  obtain ⟨v, -, hle, hU⟩ := exists_half_unitsPerOne
  obtain ⟨z, hz⟩ := exists_scaled (m := 2 * j + 1) (e := v) (by omega) (by omega)
  exact ⟨z, by rw [hz, hU, Nat.mul_left_comm]⟩

/-- Magnitudes below `2 ^ 52` leave out half a unit. -/
theorem le_of_lt_pow (h : x.scaled < 2 ^ 52 * unitsPerOne) :
    2 * x.scaled ≤ (2 ^ 53 - 1) * unitsPerOne := by
  obtain ⟨v, -, -, hU⟩ := exists_half_unitsPerOne
  have hexponent : x.exponent < v + 1 := by
    refine exponent_lt_of_scaled_lt (by omega) (h.trans_eq ?_)
    rw [hU, ← Nat.pow_succ']
  have hle : x.scaled ≤ (2 ^ 53 - 1) * 2 ^ v := by
    have hm := x.mantissa_lt
    exact Nat.mul_le_mul (by omega) (Nat.pow_le_pow_right two_pos (by omega))
  rw [hU, Nat.mul_left_comm]
  exact Nat.mul_le_mul_left 2 hle

theorem IsNearest.natAbs_sub_le {c : ℕ} (h : x.IsNearest c) (y : Magnitude) :
    ((x.scaled : ℤ) - c).natAbs ≤ ((y.scaled : ℤ) - c).natAbs := by
  zify
  exact_mod_cast h.le y

/-- Rounding reaches `2 ^ 52` from the middle between that and the magnitude before it on, for the
mantissa before it is odd. -/
theorem IsNearest.lt_pow_iff {c : ℕ} (h : x.IsNearest c) :
    x.scaled < 2 ^ 52 * unitsPerOne ↔ 4 * c < (2 ^ 54 - 1) * unitsPerOne := by
  obtain ⟨v, -, hv, hU⟩ := exists_half_unitsPerOne
  obtain ⟨top, htop⟩ := exists_multiple (k := 2 ^ 52) (by norm_num)
  let below : Magnitude := ⟨2 ^ 53 - 1, v, by norm_num, by omega, .inl (by norm_num)⟩
  have hbelow : 2 * below.scaled = (2 ^ 53 - 1) * unitsPerOne := by
    rw [hU, Nat.mul_left_comm]
    rfl
  have hpos := unitsPerOne_pos
  have htop' := h.natAbs_sub_le top
  have hbelow' := h.natAbs_sub_le below
  constructor
  · intro hlt
    by_contra hge
    have hx := le_of_lt_pow hlt
    -- Only the magnitude before `2 ^ 52` can be as near as that, and its mantissa is odd.
    have heq : x = below := scaled_injective (by omega)
    have hdist : |(top.scaled : ℚ) - c| = |(x.scaled : ℚ) - c| := by
      have hint : ((top.scaled : ℤ) - c).natAbs = ((x.scaled : ℤ) - c).natAbs := by omega
      zify at hint
      exact_mod_cast hint
    have heven := h.even top (by exact_mod_cast (by omega : top.scaled ≠ x.scaled)) hdist
    rw [heq] at heven
    exact absurd (show Even (2 ^ 53 - 1) from heven) (by decide)
  · intro hlt
    omega

/-- Other magnitudes are at least a last binary digit away, or half of one at a power of two. -/
theorem pow_le_natAbs_sub (h : y.scaled ≠ x.scaled) :
    2 ^ x.exponent ≤ ((y.scaled : ℤ) - x.scaled).natAbs ∨
      x.mantissa = 2 ^ 52 ∧ 2 ^ x.exponent ≤ 2 * ((y.scaled : ℤ) - x.scaled).natAbs := by
  rcases Nat.lt_or_ge y.exponent x.exponent with hlt | hge
  · obtain ⟨e, he⟩ : ∃ e, x.exponent = e + 1 := ⟨x.exponent - 1, by omega⟩
    have hm : 2 ^ 52 ≤ x.mantissa := by
      have := x.normal
      omega
    have hy : y.scaled ≤ (2 ^ 53 - 1) * 2 ^ e := by
      have hmy := y.mantissa_lt
      exact Nat.mul_le_mul (by omega) (Nat.pow_le_pow_right two_pos (by omega))
    have hx : x.scaled = x.mantissa * (2 * 2 ^ e) := by rw [scaled_eq, he, Nat.pow_succ']
    rw [he, Nat.pow_succ']
    generalize 2 ^ e = g at hy hx ⊢
    rcases hm.lt_or_eq with hgt | heq
    · left
      have hle := Nat.mul_le_mul_right (2 * g) hgt
      omega
    · right
      rw [← heq] at hx
      omega
  · left
    have hy : 2 ^ x.exponent ∣ y.scaled := (Nat.pow_dvd_pow 2 hge).trans (Dvd.intro_left _ rfl)
    have hx : 2 ^ x.exponent ∣ x.scaled := Dvd.intro_left _ rfl
    have hdvd := dvd_sub (Int.natCast_dvd_natCast.2 hy) (Int.natCast_dvd_natCast.2 hx)
    exact Nat.le_of_dvd (by omega) (Int.natCast_dvd.1 hdvd)

/-- A magnitude with a fraction is counted in units of less than one. -/
theorem exists_of_not_isWhole (hx : x.isWhole = false) :
    ∃ w, unitsPerOne = 2 ^ w ∧ x.exponent < w := by
  obtain ⟨w, -, -, hU⟩ := exists_unitsPerOne_eq
  refine ⟨w, hU, ?_⟩
  by_contra hge
  have hdvd : unitsPerOne ∣ x.scaled := by
    rw [hU, scaled_eq]
    exact Dvd.dvd.mul_left (Nat.pow_dvd_pow 2 (Nat.le_of_not_lt hge)) _
  rw [isWhole, fraction, Nat.mod_eq_zero_of_dvd hdvd] at hx
  cases hx

theorem lt_of_not_isWhole (hx : x.isWhole = false) : x.scaled < 2 ^ 52 * unitsPerOne := by
  obtain ⟨w, hU, hw⟩ := exists_of_not_isWhole hx
  rw [hU]
  exact scaled_lt_of_exponent_lt_pow hw

theorem whole_mul_add_fraction (x : Magnitude) :
    x.whole * unitsPerOne + x.fraction = x.scaled :=
  Nat.div_add_mod' x.scaled unitsPerOne

theorem fraction_lt (x : Magnitude) : x.fraction < unitsPerOne :=
  Nat.mod_lt _ unitsPerOne_pos

theorem fraction_eq_zero (hx : x.isWhole = true) : x.fraction = 0 :=
  beq_iff_eq.1 hx

theorem whole_lt_of_not_isWhole (hx : x.isWhole = false) : x.whole < 2 ^ 52 :=
  (Nat.div_lt_iff_lt_mul unitsPerOne_pos).2 (lt_of_not_isWhole hx)

/-- A multiple of one that is less than one away from a magnitude is a magnitude. -/
theorem exists_multiple_near {k : ℕ} (hlt : x.scaled < (k + 1) * unitsPerOne)
    (hgt : k * unitsPerOne < x.scaled + unitsPerOne) :
    ∃ z : Magnitude, z.scaled = k * unitsPerOne := by
  have hsum := whole_mul_add_fraction x
  have hU := unitsPerOne_pos
  cases hx : x.isWhole with
  | true =>
    rw [fraction_eq_zero hx, Nat.add_zero] at hsum
    rw [← hsum] at hlt hgt
    rw [← Nat.succ_mul] at hgt
    have hle := Nat.lt_of_mul_lt_mul_right hlt
    have hge := Nat.lt_of_mul_lt_mul_right hgt
    exact ⟨x, by rw [← hsum, show x.whole = k by omega]⟩
  | false =>
    have hsmall := lt_of_not_isWhole hx
    refine exists_multiple ?_
    have hlt' : k * unitsPerOne < (2 ^ 52 + 1) * unitsPerOne := by linarith
    have := Nat.lt_of_mul_lt_mul_right hlt'
    omega

/-- The rest of a magnitude over a whole number is a magnitude. -/
theorem exists_fraction (x : Magnitude) : ∃ z : Magnitude, z.scaled = x.fraction := by
  cases hx : x.isWhole with
  | true => exact ⟨.zero, by rw [fraction_eq_zero hx]; simp [scaled, Magnitude.zero]⟩
  | false =>
    obtain ⟨w, hU, hw⟩ := exists_of_not_isWhole hx
    refine exists_of_dvd (Nat.mod_le _ _) ((Nat.dvd_mod_iff ?_).2 ?_)
    · rw [hU]
      exact Nat.pow_dvd_pow 2 hw.le
    · exact Dvd.intro_left _ rfl

/-- What a magnitude lacks to the next whole number is a magnitude, unless it is less than half. -/
theorem exists_lack (hx : x.isWhole = false) (hhalf : unitsPerOne ≤ 2 * x.scaled) :
    ∃ z : Magnitude, z.scaled = unitsPerOne - x.fraction := by
  obtain ⟨w, hU, hw⟩ := exists_of_not_isWhole hx
  have hdvd : 2 ^ x.exponent ∣ unitsPerOne := by
    rw [hU]
    exact Nat.pow_dvd_pow 2 hw.le
  refine exists_of_dvd ?_ (Nat.dvd_sub hdvd ((Nat.dvd_mod_iff hdvd).2 (Dvd.intro_left _ rfl)))
  have hsum := whole_mul_add_fraction x
  rcases Nat.eq_zero_or_pos x.whole with hzero | hpos
  · rw [hzero, Nat.zero_mul] at hsum
    omega
  · have hle := Nat.le_mul_of_pos_left unitsPerOne hpos
    omega

theorem nearest_of_scaled {c : ℕ} (hx : x.scaled = c) : nearest c 1 = some x := by
  simpa [hx] using nearest_scaled x Nat.zero_lt_one

end Magnitude

namespace Number

open Magnitude

variable {a b n : Number} {i j : ℤ}

theorem exists_of_scaled? (h : n.scaled? = some i) :
    ∃ s x, n = .finite s x ∧ x.signed s = i := by
  cases n with
  | nan => cases h
  | infinite s => cases h
  | finite s x => exact ⟨s, x, rfl, Option.some.inj h⟩

theorem scaled?_finite (s : Bool) (x : Magnitude) :
    (finite s x).scaled? = some (x.signed s) := rfl

theorem natAbs_signed (s : Bool) (x : Magnitude) : (x.signed s).natAbs = x.scaled := by
  cases s <;> simp [signed]

theorem dvd_signed (s : Bool) {x : Magnitude} (hx : x.isWhole = true) :
    (unitsPerOne : ℤ) ∣ x.signed s := by
  rw [Int.natCast_dvd, natAbs_signed]
  exact Nat.dvd_of_mod_eq_zero (fraction_eq_zero hx)

/-! ## Sums and differences -/

theorem scaled?_add (ha : a.scaled? = some i) (hb : b.scaled? = some j)
    (hz : ∃ z : Magnitude, z.scaled = (i + j).natAbs) : (a.add b).scaled? = some (i + j) := by
  obtain ⟨s, x, rfl, hx⟩ := exists_of_scaled? ha
  obtain ⟨t, y, rfl, hy⟩ := exists_of_scaled? hb
  obtain ⟨z, hz⟩ := hz
  have hadd : add (.finite s x) (.finite t y) =
      if i + j = 0 then .finite (s && t) .zero
      else ofMagnitude (decide (i + j < 0)) (nearest (i + j).natAbs 1) := by
    rw [← hx, ← hy]
    rfl
  rw [hadd]
  split
  · next hzero =>
    rw [scaled?_finite, hzero]
    cases s <;> cases t <;> simp [signed, Magnitude.zero, scaled]
  · rw [nearest_of_scaled hz, ofMagnitude, scaled?_finite, signed, hz]
    grind

theorem scaled?_negate (ha : a.scaled? = some i) : a.negate.scaled? = some (-i) := by
  obtain ⟨s, x, rfl, hx⟩ := exists_of_scaled? ha
  rw [negate, scaled?_finite, signed_not, hx]

theorem scaled?_sub (ha : a.scaled? = some i) (hb : b.scaled? = some j)
    (hz : ∃ z : Magnitude, z.scaled = (i - j).natAbs) : (a.sub b).scaled? = some (i - j) := by
  rw [Int.sub_eq_add_neg] at hz ⊢
  exact scaled?_add ha (scaled?_negate hb) hz

/-! ## Whole numbers -/

theorem scaled?_wholeOf (negative : Bool) {k : ℕ}
    (hz : ∃ z : Magnitude, z.scaled = k * unitsPerOne) :
    (wholeOf negative k).scaled? = some ((if negative then -(k : ℤ) else k) * unitsPerOne) := by
  obtain ⟨z, hz⟩ := hz
  rw [wholeOf, Number.ofRatio, Magnitude.ofRatio, nearest_of_scaled hz, ofMagnitude,
    scaled?_finite, signed, hz, Nat.cast_mul]
  cases negative
  · rfl
  · rw [if_pos rfl, if_pos rfl, neg_mul]

theorem scaled?_ofNat {k : ℕ} (hk : k ≤ 2 ^ 53) :
    (ofNat k).scaled? = some ((k : ℤ) * unitsPerOne) :=
  scaled?_wholeOf false (exists_multiple hk)

theorem ofNat_of_scaled {k : ℕ} {x : Magnitude} (hx : x.scaled = k * unitsPerOne) :
    ofNat k = .finite false x := by
  rw [ofNat, Number.ofRatio, Magnitude.ofRatio, nearest_of_scaled hx, ofMagnitude]

theorem ediv_eq_of_bounds {i k u : ℤ} (hu : 0 < u) (hle : k * u ≤ i) (hlt : i < (k + 1) * u) :
    i / u = k :=
  le_antisymm (Int.lt_add_one_iff.1 ((Int.ediv_lt_iff_lt_mul hu).2 hlt))
    ((Int.le_ediv_iff_mul_le hu).2 hle)

/-- The floor is exact. -/
theorem scaled?_floor (h : n.scaled? = some i) :
    n.floor.scaled? = some (i / unitsPerOne * unitsPerOne) := by
  obtain ⟨s, x, rfl, rfl⟩ := exists_of_scaled? h
  have hsum : (x.scaled : ℤ) = x.whole * unitsPerOne + x.fraction := by
    exact_mod_cast (whole_mul_add_fraction x).symm
  have hlt : (x.fraction : ℤ) < unitsPerOne := by exact_mod_cast fraction_lt x
  have hU : (0 : ℤ) < unitsPerOne := by exact_mod_cast unitsPerOne_pos
  cases hx : x.isWhole with
  | true =>
    have hzero := fraction_eq_zero hx
    have hfloor : floor (.finite s x) = wholeOf s x.whole := by simp [floor, hx]
    rw [hzero, Nat.cast_zero, Int.add_zero] at hsum
    rw [hfloor, scaled?_wholeOf s ⟨x, by exact_mod_cast hsum⟩, signed, hsum]
    generalize (unitsPerOne : ℤ) = u at hU
    have hsign : (if s then -((x.whole : ℤ) * u) else x.whole * u) =
        (if s then -(x.whole : ℤ) else x.whole) * u := by
      rw [← Int.neg_mul]
      exact (ite_mul _ _ _ _).symm
    rw [hsign, Int.mul_ediv_cancel _ hU.ne']
  | false =>
    have hwhole := whole_lt_of_not_isWhole hx
    have hpos : (0 : ℤ) < x.fraction := by
      have hne : x.fraction ≠ 0 := by simpa [isWhole] using hx
      omega
    have hfloor : floor (.finite s x) = wholeOf s (if s then x.whole + 1 else x.whole) := by
      simp [floor, hx]
    rw [hfloor, scaled?_wholeOf s (exists_multiple (by split <;> omega)), signed, hsum]
    generalize (unitsPerOne : ℤ) = u at hlt hU
    congr 2
    refine (ediv_eq_of_bounds hU ?_ ?_).symm <;> cases s <;>
      simp only [if_true, if_false, Bool.false_eq_true, Nat.cast_add, Nat.cast_one] <;> linarith

/-- The nearest integer is exact, and a tie goes up under both signs. -/
theorem scaled?_roundHalfUp (h : n.scaled? = some i) :
    n.roundHalfUp.scaled? = some ((2 * i + unitsPerOne) / (2 * unitsPerOne) * unitsPerOne) := by
  obtain ⟨s, x, rfl, rfl⟩ := exists_of_scaled? h
  have hU := unitsPerOne_pos
  cases s with
  | false =>
    have hround : roundHalfUp (.finite false x) =
      wholeOf false ((2 * x.scaled + unitsPerOne) / (2 * unitsPerOne)) := rfl
    have hle := Nat.div_mul_le_self (2 * x.scaled + unitsPerOne) (2 * unitsPerOne)
    have hlt := Nat.lt_div_mul_add (a := 2 * x.scaled + unitsPerOne) (Nat.mul_pos two_pos hU)
    rw [hround, scaled?_wholeOf false (exists_multiple_near (x := x) (by linarith) (by linarith)),
      signed, if_neg Bool.false_ne_true, if_neg Bool.false_ne_true]
    push_cast
    rfl
  | true =>
    have hround : roundHalfUp (.finite true x) =
      wholeOf true ((2 * x.scaled + unitsPerOne - 1) / (2 * unitsPerOne)) := rfl
    have hle := Nat.div_mul_le_self (2 * x.scaled + unitsPerOne - 1) (2 * unitsPerOne)
    have hlt := Nat.lt_div_mul_add (a := 2 * x.scaled + unitsPerOne - 1) (Nat.mul_pos two_pos hU)
    have hpred : 2 * x.scaled + unitsPerOne - 1 + 1 = 2 * x.scaled + unitsPerOne := by omega
    rw [hround]
    generalize (2 * x.scaled + unitsPerOne - 1) / (2 * unitsPerOne) = k at hle hlt ⊢
    generalize 2 * x.scaled + unitsPerOne - 1 = c at hle hlt hpred
    rw [scaled?_wholeOf true (exists_multiple_near (x := x) (by linarith) (by linarith)), signed]
    zify at hle hlt hpred hU
    generalize (unitsPerOne : ℤ) = u at hle hlt hpred hU ⊢
    congr 2
    refine (ediv_eq_of_bounds (by linarith) ?_ ?_).symm <;> simp only [if_true] <;> linarith

/-! ## Halves and even numbers -/

theorem scaled?_half : ∃ i, half.scaled? = some i ∧ 2 * i = unitsPerOne := by
  obtain ⟨z, hz⟩ := exists_half (j := 0) (by norm_num)
  have hdouble : z.scaled * 2 = unitsPerOne := by omega
  have hhalf : half = .finite false z := by
    have hnearest := nearest_scaled z (d := 2) two_pos
    rw [hdouble] at hnearest
    rw [half, dyadic, Number.ofRatio, Magnitude.ofRatio, Nat.one_mul]
    show ofMagnitude false (nearest unitsPerOne 2) = _
    rw [hnearest, ofMagnitude]
  exact ⟨z.scaled, by rw [hhalf]; rfl, by omega⟩

theorem equal_half (h : n.scaled? = some i) : n.equal half = true ↔ 2 * i = unitsPerOne := by
  obtain ⟨s, x, rfl, rfl⟩ := exists_of_scaled? h
  obtain ⟨j, hj, hdouble⟩ := scaled?_half
  obtain ⟨t, y, hy, rfl⟩ := exists_of_scaled? hj
  rw [hy, equal_finite]
  omega

theorem toInt?_of_scaled? {k : ℤ} (h : n.scaled? = some (k * unitsPerOne)) :
    n.toInt? = some k := by
  obtain ⟨s, x, rfl, hx⟩ := exists_of_scaled? h
  have hscaled : x.scaled = k.natAbs * unitsPerOne := by
    rw [← natAbs_signed s x, hx, Int.natAbs_mul, Int.natAbs_natCast]
  have hwhole := whole_of_scaled hscaled
  have hU : (0 : ℤ) < unitsPerOne := by exact_mod_cast unitsPerOne_pos
  have hsign : (if s then -(k.natAbs : ℤ) else k.natAbs) * unitsPerOne = k * unitsPerOne := by
    rw [← hx, signed, hscaled, Nat.cast_mul]
    cases s
    · rfl
    · rw [if_pos rfl, if_pos rfl, neg_mul]
  rw [toInt?, if_pos (isWhole_iff.2 (by rw [hwhole, hscaled])), hwhole,
    Int.eq_of_mul_eq_mul_right hU.ne' hsign]

theorem isEven_of_scaled? {k : ℤ} (h : n.scaled? = some (k * unitsPerOne)) :
    n.isEven = decide (k % 2 = 0) := by
  rw [isEven, toInt?_of_scaled? h]
  rfl

end Number

end TreeExtraction
